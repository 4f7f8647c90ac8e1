import Treewire.Proofs.Presence

/-!
# Trees that are cut short

More octets behind an item change nothing about it. So what is left of an item that was cut short is
no item, and a payload that ends within a record has no records at all. `decodeTree_truncated` says
what this makes of the octets of a tree: cut short behind a statement they are those of the tree up to
there, and cut short elsewhere they are refused.
-/

namespace Treewire

open Schema

-- ---------------------------------------------------------------------------
-- More octets
-- ---------------------------------------------------------------------------

namespace Wire

variable {bytes rest more : Bytes}

theorem varint?_more (h : varint? limit bytes = some (n, rest)) :
    varint? limit (bytes ++ more) = some (n, rest ++ more) := by
  induction limit generalizing bytes n with
  | zero => cases h
  | succ limit ih =>
    cases bytes with
    | nil => cases h
    | cons b tail =>
      rw [List.cons_append, varint?]
      rw [varint?] at h
      split at h
      · cases h
        rw [if_pos ‹_›]
      · obtain ⟨⟨high, after⟩, hr, he⟩ := Option.map_eq_some_iff.mp h
        cases he
        rw [if_neg ‹_›, ih hr]
        rfl

theorem fixed?_more (h : fixed? k bytes = some (n, rest)) :
    fixed? k (bytes ++ more) = some (n, rest ++ more) := by
  induction k generalizing bytes n with
  | zero =>
    cases h
    rfl
  | succ k ih =>
    cases bytes with
    | nil => cases h
    | cons b tail =>
      rw [fixed?] at h
      obtain ⟨⟨high, after⟩, hr, he⟩ := Option.map_eq_some_iff.mp h
      cases he
      rw [List.cons_append, fixed?, ih hr]
      rfl

theorem block?_more (h : block? n bytes = some (block, rest)) :
    block? n (bytes ++ more) = some (block, rest ++ more) := by
  rw [block?, Option.ite_none_right_eq_some] at h
  obtain ⟨hn, he⟩ := h
  cases he
  have hle : n ≤ (bytes ++ more).length := by
    rw [List.length_append]
    exact Nat.le_add_right_of_le hn
  rw [block?, if_pos hle, List.take_append_of_le_length hn, List.drop_append_of_le_length hn]

theorem tag?_more (h : tag? bytes = some (tag, rest)) :
    tag? (bytes ++ more) = some (tag, rest ++ more) := by
  unfold tag? at h ⊢
  split at h
  · rename_i n after hv
    rw [Option.ite_none_right_eq_some] at h
    obtain ⟨hn, he⟩ := h
    cases he
    rw [varint?_more hv]
    exact if_pos hn
  · cases h

theorem length?_more (h : length? bytes = some (n, rest)) :
    length? (bytes ++ more) = some (n, rest ++ more) := by
  unfold length? at h ⊢
  split at h
  · rename_i n' after hv
    rw [Option.ite_none_right_eq_some] at h
    obtain ⟨hn, he⟩ := h
    cases he
    rw [varint?_more hv]
    exact if_pos hn
  · cases h

theorem mark?_more (h : mark? wireType bytes = some (mark, rest)) :
    mark? wireType (bytes ++ more) = some (mark, rest ++ more) := by
  unfold mark? at h ⊢
  split at h
  · obtain ⟨⟨n, after⟩, hr, he⟩ := Option.map_eq_some_iff.mp h
    cases he
    rw [varint?_more hr]
    rfl
  · obtain ⟨⟨n, after⟩, hr, he⟩ := Option.map_eq_some_iff.mp h
    cases he
    rw [fixed?_more hr]
    rfl
  · obtain ⟨⟨n, after⟩, hl, hb⟩ := Option.bind_eq_some_iff.mp h
    obtain ⟨⟨block, behind⟩, hr, he⟩ := Option.map_eq_some_iff.mp hb
    cases he
    rw [length?_more hl, Option.bind_some]
    dsimp only
    rw [block?_more hr]
    rfl
  · cases h
    rfl
  · cases h
    rfl
  · obtain ⟨⟨n, after⟩, hr, he⟩ := Option.map_eq_some_iff.mp h
    cases he
    rw [fixed?_more hr]
    rfl
  · cases h

/-- More octets behind an item change nothing about it. -/
theorem item?_more (h : item? bytes = some (item, rest)) :
    item? (bytes ++ more) = some (item, rest ++ more) := by
  unfold item? at h ⊢
  obtain ⟨⟨⟨number, wireType⟩, after⟩, ht, hm⟩ := Option.bind_eq_some_iff.mp h
  obtain ⟨⟨mark, behind⟩, hr, he⟩ := Option.bind_eq_some_iff.mp hm
  cases he
  rw [tag?_more ht, Option.bind_eq_bind, Option.bind_some]
  dsimp only
  rw [mark?_more hr]
  rfl

-- ---------------------------------------------------------------------------
-- Cut short
-- ---------------------------------------------------------------------------

/-- What is left of an item that was cut short is no item. -/
theorem item?_cut (h : item? (bytes ++ more) = some (item, [])) (hm : more ≠ []) :
    item? bytes = none := by
  cases hb : item? bytes with
  | none => rfl
  | some found =>
    obtain ⟨other, rest⟩ := found
    rw [item?_more hb] at h
    exact absurd (List.append_eq_nil_iff.mp (Prod.mk.inj (Option.some.inj h)).2).2 hm

theorem items?_cut (hn : IsNumber number) (hs : mark.octets.length < 0x80000000)
    (h : itemOctets number mark = bytes ++ more) (hb : bytes ≠ []) (hm : more ≠ []) :
    items? bytes = none := by
  have hitem : item? (bytes ++ more) = some ((number, mark), []) := by
    rw [← h, ← List.append_nil (itemOctets number mark)]
    exact item?_itemOctets hn hs
  rw [items?, if_neg hb, item?_cut hitem hm]

end Wire

namespace Message

open Wire

variable {s : Schema} {t : MessageType} {m : Message} {p : Bytes}

-- ---------------------------------------------------------------------------
-- The first entries of a message
-- ---------------------------------------------------------------------------

/-- The message of the first entries of a message. All entries of a tree are statements. -/
def first (m : Message) (k : Nat) : Message := .ofList (m.toList.take k)

/-- Where the last of the first records of a written message ends. -/
def endOf (m : Message) (k : Nat) : Nat :=
  ((m.toList.take k).flatMap fun e => itemOctets e.1 e.2.mark).length

theorem first_zero (m : Message) : m.first 0 = .empty := rfl

theorem first_empty (k : Nat) : Message.empty.first k = .empty := by
  cases k <;> rfl

theorem first_entry (number : Nat) (value : Value) (rest : Message) (k : Nat) :
    (Message.entry number value rest).first (k + 1) = .entry number value (rest.first k) := rfl

theorem toList_first (m : Message) (k : Nat) : (m.first k).toList = m.toList.take k := by
  rw [first, toList_ofList]

theorem length_octets_first (m : Message) (k : Nat) : (m.first k).octets.length = m.endOf k := by
  rw [octets_eq_flatMap, toList_first, List.flatMap_map, endOf]

theorem octets_first_begins (m : Message) (k : Nat) : (m.first k).octets <+: m.octets := by
  induction m using entries_induction generalizing k with
  | empty => simp [first_empty]
  | entry number value rest ih =>
    cases k with
    | zero => exact List.nil_prefix
    | succ k => exact (List.prefix_append_right_inj _).mpr (ih k)

theorem depth_first_le (m : Message) (k : Nat) : (m.first k).depth ≤ m.depth := by
  induction m using entries_induction generalizing k with
  | empty => simp [first_empty]
  | entry number value rest ih =>
    cases k with
    | zero => exact Nat.zero_le _
    | succ k =>
      exact Nat.max_le.mpr ⟨Nat.le_max_left _ _, Nat.le_trans (ih k) (Nat.le_max_right _ _)⟩

theorem Instance.first (h : m.Instance s t) (k : Nat) : (m.first k).Instance s t := by
  induction m using entries_induction generalizing k with
  | empty =>
    rw [first_empty]
    exact h
  | entry number value rest ih =>
    cases k with
    | zero => exact .empty
    | succ k =>
      obtain ⟨⟨hv, hn, ho, hr⟩, hset, hp⟩ := h
      have hrest := ih ⟨hr, hp⟩ k
      have hmem : ∀ e ∈ (rest.first k).toList, e ∈ rest.toList := fun e he =>
        List.mem_of_mem_take (toList_first rest k ▸ he)
      exact ⟨⟨hv, hn, fun e he => ho e (hmem e he), hrest.fits⟩, hset, hrest.present⟩

/-- A prefix of a written message ends behind one of its records, or what is there of the next one is
no item. -/
theorem octets_cut (hn : ∀ e ∈ m.toList, IsNumber e.1) (hs : m.octets.length < 0x80000000)
    (hp : p <+: m.octets) : (∃ k, p = (m.first k).octets) ∨ items? p = none := by
  induction m using entries_induction generalizing p with
  | empty => exact .inl ⟨0, List.prefix_nil.mp hp⟩
  | entry number value rest ih =>
    rw [toList, List.forall_mem_cons] at hn
    have hmark : value.mark.octets.length < 0x80000000 :=
      Nat.lt_of_le_of_lt (mark_octets_length_le (e := (number, value)) List.mem_cons_self) hs
    have hrest : rest.octets.length < 0x80000000 := by
      rw [octets, List.length_append] at hs
      exact Nat.lt_of_le_of_lt (Nat.le_add_left _ _) hs
    obtain ⟨more, hm⟩ := hp
    rw [octets, List.append_eq_append_iff] at hm
    rcases hm with ⟨missing, hitem, -⟩ | ⟨behind, rfl, hbehind⟩
    · -- The cut is within the first record, or at one of its ends.
      by_cases hnone : p = []
      · exact .inl ⟨0, hnone⟩
      by_cases hwhole : missing = []
      · refine .inl ⟨1, ?_⟩
        rw [first_entry, first_zero, octets, octets, List.append_nil, hitem, hwhole,
          List.append_nil]
      · exact .inr (items?_cut hn.1 hmark hitem hnone hwhole)
    · rcases ih hn.2 hrest ⟨more, hbehind.symm⟩ with ⟨k, rfl⟩ | hcut
      · exact .inl ⟨k + 1, rfl⟩
      · refine .inr ?_
        rw [items?_itemOctets_append hn.1 hmark, hcut]
        rfl

/-- The octets up to the end of a record decode to the entries up to there. -/
theorem Instance.decode?_first (h : m.Instance s t) (hd : m.depth ≤ depthLimit)
    (hs : m.octets.length < 0x80000000) (k : Nat) :
    Message.decode? s t (m.first k).octets = some (m.first k) := by
  have hk : (m.first k).serialize? = some (m.first k).octets :=
    serialize?_eq_some.mpr ⟨Nat.lt_of_le_of_lt (octets_first_begins m k).length_le hs, rfl⟩
  rw [(h.first k).decode? hk, if_pos (Nat.le_trans (depth_first_le m k) hd)]

end Message

/-- The octets of a tree that were cut short are refused, or they give the tree of its first
statements; and this they do exactly if they end where one of the statements ends. -/
theorem decodeTree_truncated {m : Message} {p w : Bytes} {path : Text} {session after : Session}
    (hm : m.Instance bundled Bundled.ast) (hd : m.depth ≤ Message.depthLimit)
    (hw : m.serialize? = some w) (hp : p <+: w) (hl : Act.Loads path session after) :
    (Act.decodeTree p path session = (.error (.badPayload p.length), after) ∨
      ∃ k, Act.decodeTree p path session = (.ok ⟨bundled, Bundled.ast, m.first k⟩, after)) ∧
    ∀ k, Act.decodeTree p path session = (.ok ⟨bundled, Bundled.ast, m.first k⟩, after) ↔
      p.length = m.endOf k := by
  obtain ⟨hs, rfl⟩ := Message.serialize?_eq_some.mp hw
  have hends (k : Nat) : p.length = m.endOf k ↔ p = (m.first k).octets := by
    rw [← Message.length_octets_first]
    refine ⟨fun h => ?_, congrArg List.length⟩
    have hle := List.prefix_of_prefix_length_le hp (m.octets_first_begins k) (Nat.le_of_eq h)
    exact hle.eq_of_length h
  have hfirst (k : Nat) : Act.decodeTree (m.first k).octets path session =
      (.ok ⟨bundled, Bundled.ast, m.first k⟩, after) := by
    rw [Act.decodeTree_eq hl, hm.decode?_first hd hs k]
  simp only [hends]
  rcases Message.octets_cut (Message.isNumber_of_fits hm.fits) hs hp with ⟨j, rfl⟩ | hcut
  · refine ⟨.inr ⟨j, hfirst j⟩, fun k => ⟨fun h => ?_, fun h => h ▸ hfirst k⟩⟩
    rw [hfirst j] at h
    have hsame : m.first j = m.first k := by
      injection h with hok
      injection hok with htree
      injection htree
    rw [hsame]
  · have hrefused : Act.decodeTree p path session = (.error (.badPayload p.length), after) := by
      rw [Act.decodeTree_eq hl, Message.decode?, Wire.records?, hcut]
      rfl
    refine ⟨.inl hrefused, fun k => ⟨fun h => ?_, fun h => h ▸ hfirst k⟩⟩
    rw [hrefused] at h
    cases h

namespace Message

/-- A tree of two classes. -/
def classes : Message :=
  .entry 1 (.message (indexed .empty)) (.entry 1 (.message (indexed spread)) .empty)

theorem classes_instance : classes.Instance bundled Bundled.ast := by
  have hstatement := message?_of_mem (t := Bundled.statement) (by simp [bundled]) rfl
  have hlast : (Message.entry 1 (.message (indexed spread)) .empty).Instance bundled Bundled.ast :=
    .only rfl (by decide) rfl hstatement rfl (indexed_instance spread_instance)
  refine .nested rfl (by decide) rfl hstatement rfl (indexed_instance .empty) ?_ hlast
  refine List.forall_mem_singleton.mpr ⟨Nat.le_refl 1, fun f hf => ?_⟩
  have hf : some (Bundled.many "Statement" 1 "statements") = some f := hf
  cases hf
  exact ⟨fun _ => rfl, by decide⟩

end Message

open Message in
/-- Of two classes the first is read if the octets end behind it, and nothing is if they end within
the second. -/
theorem classes_truncated :
    (classes.Instance bundled Bundled.ast ∧ classes.depth ≤ depthLimit ∧
      classes.serialize? = some classes.octets ∧ Act.Loads informedPath .informed .informed) ∧
    (classes.octets.take 10 <+: classes.octets ∧
      Act.decodeTree (classes.octets.take 10) informedPath .informed =
        (.ok ⟨bundled, Bundled.ast, classes.first 1⟩, .informed)) ∧
    classes.octets.take 20 <+: classes.octets ∧
      Act.decodeTree (classes.octets.take 20) informedPath .informed =
        (.error (.badPayload 20), .informed) := by
  have hdepth : classes.depth ≤ depthLimit := by decide
  have hwritten : classes.serialize? = some classes.octets := by decide
  have hread (n : Nat) := decodeTree_truncated classes_instance hdepth hwritten
    (classes.octets.take_prefix n) Session.informed_loads
  refine ⟨⟨classes_instance, hdepth, hwritten, Session.informed_loads⟩,
    ⟨List.take_prefix .., ((hread 10).2 1).mpr (by decide)⟩, List.take_prefix .., ?_⟩
  rcases (hread 20).1 with hrefused | ⟨k, hk⟩
  · exact hrefused
  · have hend := ((hread 20).2 k).mp hk
    rcases k with _ | _ | k
    · exact absurd hend (by decide)
    · exact absurd hend (by decide)
    · have hall : classes.endOf (k + 2) = classes.endOf 2 := by cases k <;> rfl
      rw [hall] at hend
      exact absurd hend (by decide)

end Treewire
