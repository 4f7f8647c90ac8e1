import Treewire.Proofs.Bodies
import Treewire.Proofs.Foreign
import Treewire.Proofs.Views

/-!
# Merging

What octets decode to when the octets of a message are put behind them. `Message.merge` says it
field by field: elements are appended, a value replaces the one before, a message is merged into the
one in place, and a member of a oneof puts out the others. The reader does this record by record, so
the two meet in what one more entry makes of a merge (`merge_entry`); `decode?_append` follows by
induction on the message that is put behind.
-/

namespace Treewire

open Schema Wire

-- ---------------------------------------------------------------------------
-- Merged messages
-- ---------------------------------------------------------------------------

/-- Whether a message has another member of a field's oneof. -/
def Message.ousts (t : MessageType) (m : Message) (f : Field) : Bool :=
  t.fields.any fun g => MessageType.excludes f g && !(m.values g.number).isEmpty

theorem Message.sizeOf_values_le (number : Nat) (m : Message) :
    sizeOf (m.values number) ≤ sizeOf m := by
  induction m using entries_induction with
  | empty => exact Nat.le_refl 1
  | entry n v rest ih =>
    rw [values]
    split
    · simp only [List.cons.sizeOf_spec, Message.entry.sizeOf_spec]
      omega
    · rw [Message.entry.sizeOf_spec]
      omega

mutual
/-- A value in place of an older one: a message is merged into an older message. -/
def Value.over (s : Schema) (f : Field) (old : Option Value) (new : Value) : Value :=
  match Message.typeOf? s f, old, new with
  | some t, some (.message m), .message n => .message (m.merge s t n)
  | _, _, new => new
  termination_by (sizeOf new, 0)
/-- The values of a field that has new values over old ones: more elements of a repeated field, and
one value of any other. A field that got none is left as it was, unless its oneof has a new member.
-/
def Field.merge (s : Schema) (f : Field) (ousted : Bool) (old new : List Value) : List Value :=
  match f.cardinality, new with
  | .repeated, new => old ++ new
  | _, v :: _ => [v.over s f old.head?]
  | _, [] => if ousted then [] else old
  termination_by (sizeOf new, 1)
  decreasing_by
    simp only [Prod.lex_def, wfParam, List.cons.sizeOf_spec]
    omega
/-- A message with the fields of another one over its own. -/
def Message.merge (s : Schema) (t : MessageType) (m n : Message) : Message :=
  .ofList (t.fields.flatMap fun f =>
    (f.merge s (n.ousts t f) (m.values f.number) (n.values f.number)).map (f.number, ·))
  termination_by (sizeOf n, 2)
  decreasing_by
    have := n.sizeOf_values_le f.number
    simp only [Prod.lex_def]
    omega
end

/-- A message that, at any depth, has one member of a oneof at most. -/
inductive Message.Exclusive (s : Schema) : MessageType → Message → Prop
  | mk {m : Message} (hx : ∀ f ∈ t.fields, ∀ g ∈ t.fields, MessageType.excludes f g = true →
        m.values f.number = [] ∨ m.values g.number = [])
      (hn : ∀ f ∈ t.fields, ∀ type, Message.typeOf? s f = some type →
        ∀ n, .message n ∈ m.values f.number → Message.Exclusive s type n) : Message.Exclusive s t m

namespace Message

variable {s : Schema} {t : MessageType} {f g : Field} {m n x : Message} {v : Value} {number : Nat}

-- ---------------------------------------------------------------------------
-- What is put in place, field by field
-- ---------------------------------------------------------------------------

theorem values_erase (k number : Nat) (m : Message) :
    (m.erase k).values number = if number = k then [] else m.values number := by
  rw [values_eq_filter, values_eq_filter, toList_erase, List.filter_filter]
  split
  · rename_i h
    rw [List.map_eq_nil_iff, List.filter_eq_nil_iff]
    intro e _
    simp [h]
  · rename_i h
    refine congrArg _ (List.filter_congr fun e _ => ?_)
    by_cases he : e.1 = number
    · simp [he, h]
    · simp [he]

theorem values_append_of_ne (h : number ≠ k) (v : Value) (m : Message) :
    (m.append k v).values number = m.values number := by
  obtain ⟨before, after, hlist, happend, -⟩ := toList_append k v m
  rw [values_eq_filter, values_eq_filter, hlist, happend, List.filter_append, List.filter_append,
    List.filter_cons_of_neg (by simpa using h.symm)]

theorem values_append_self (h : m.toList.Pairwise fun a b => a.1 ≤ b.1) (v : Value) :
    (m.append number v).values number = m.values number ++ [v] := by
  obtain ⟨before, after, hlist, happend, -, hafter⟩ := toList_append number v m
  have hnone : after.filter (fun e => e.1 == number) = [] := by
    rw [hlist, List.pairwise_append] at h
    rw [List.filter_eq_nil_iff]
    cases after with
    | nil => exact fun e he => absurd he List.not_mem_nil
    | cons first rest =>
      have hfirst := hafter first rfl
      refine List.forall_mem_cons.mpr ⟨?_, fun e he => ?_⟩
      · simpa using (Nat.ne_of_lt hfirst).symm
      · have hle := List.rel_of_pairwise_cons h.2.1 he
        simpa using (Nat.ne_of_lt (Nat.lt_of_lt_of_le hfirst hle)).symm
  rw [values_eq_filter, values_eq_filter, hlist, happend, List.filter_append, List.filter_append,
    List.filter_cons_of_pos (by simp), hnone, List.append_nil, List.map_append]
  rfl

theorem values_erase_all (fields : List Field) (number : Nat) (m : Message) :
    (fields.foldl (fun m g => m.erase g.number) m).values number =
      if ∃ g ∈ fields, number = g.number then [] else m.values number := by
  induction fields generalizing m with
  | nil => simp
  | cons g rest ih =>
    rw [List.foldl_cons, ih, values_erase]
    by_cases hg : number = g.number
    · simp [hg]
    · simp [hg]

theorem Instance.sorted (ht : t.Regular) (hm : m.Instance s t) :
    m.toList.Pairwise fun a b => a.1 ≤ b.1 :=
  ((instance_iff ht).mp hm).2.imp fun h => h.1

/-- The values of a field in whose place one is put. -/
theorem values_put_self (ht : t.Regular) (hm : m.Instance s t)
    (hv : countsAsUnset f v = false) :
    (put t f v m).values f.number =
      if f.cardinality = .repeated then m.values f.number ++ [v] else [v] := by
  have herased (m : Message) : (m.erase f.number).values f.number = [] := by
    rw [values_erase, if_pos rfl]
  unfold put
  cases hc : f.cardinality with
  | repeated => exact values_append_self (hm.sorted ht) v
  | implicit =>
    have hd : v.isDefault = false := by simpa [countsAsUnset, hc] using hv
    dsimp only
    rw [hd, set]
    simp [values_append_self ((erase_instance ht hm _).sorted ht), herased]
  | explicit =>
    dsimp only
    rw [set]
    have hothers : ((t.fields.filter (MessageType.excludes f)).foldl
        (fun m g => m.erase g.number) m).Instance s t := by
      refine hm.sublist ht ?_
      rw [erase_all_toList]
      exact List.filter_sublist
    simp [values_append_self ((erase_instance ht hothers _).sorted ht), herased]

/-- The other fields keep their values, but for the other members of the oneof. -/
theorem values_put_other (ht : t.Regular) (hf : f ∈ t.fields) (hg : g ∈ t.fields) (hne : g ≠ f) :
    (put t f v m).values g.number =
      if MessageType.excludes f g then [] else m.values g.number := by
  have hn : g.number ≠ f.number := fun h => hne (Script.number_inj ht hg hf h)
  have alone (hc : f.cardinality ≠ .explicit) : MessageType.excludes f g = false :=
    excludes_eq_false ht hf hc g
  unfold put
  cases hc : f.cardinality with
  | repeated => simp [values_append_of_ne hn, alone (by simp [hc])]
  | implicit =>
    rw [alone (by simp [hc])]
    dsimp only
    split
    · simp [values_erase, hn]
    · simp [set, values_append_of_ne hn, values_erase, hn]
  | explicit =>
    have hmem : (∃ h ∈ t.fields.filter (MessageType.excludes f), g.number = h.number) ↔
        MessageType.excludes f g = true := by
      constructor
      · rintro ⟨h, hh, hgh⟩
        obtain ⟨hht, hx⟩ := List.mem_filter.mp hh
        rwa [Script.number_inj ht hg hht hgh]
      · exact fun hx => ⟨g, List.mem_filter.mpr ⟨hg, hx⟩, rfl⟩
    dsimp only
    rw [set, values_append_of_ne hn, values_erase, if_neg hn, values_erase_all]
    simp only [hmem]

-- ---------------------------------------------------------------------------
-- One more entry
-- ---------------------------------------------------------------------------

theorem ousts_iff : n.ousts t g = true ↔
    ∃ f ∈ t.fields, MessageType.excludes g f = true ∧ n.values f.number ≠ [] := by
  simp [ousts]

/-- An entry is that of a field without others, unless the field is repeated, and no other member of
its oneof is behind it. -/
theorem Instance.entry_inv {rest : Message} (ht : t.Regular) (hf : f ∈ t.fields)
    (h : (Message.entry f.number v rest).Instance s t) :
    Suits s f v ∧ rest.Instance s t ∧
      (f.cardinality ≠ .repeated → rest.values f.number = []) ∧
        ∀ g ∈ t.fields, MessageType.excludes f g = true → rest.values g.number = [] := by
  obtain ⟨hall, hsorted⟩ := (instance_iff ht).mp h
  rw [toList, List.forall_mem_cons] at hall
  rw [toList, List.pairwise_cons] at hsorted
  obtain ⟨⟨f', hf', hn, hv⟩, hrest⟩ := hall
  obtain rfl := Script.number_inj ht hf' hf hn
  refine ⟨hv, (instance_iff ht).mpr ⟨hrest, hsorted.2⟩, fun hc => ?_, fun g hg hx => ?_⟩
  · refine values_eq_nil fun e he heq => hc ?_
    exact ((hsorted.1 e he).2 f' ((Script.field?_eq_some ht).mpr ⟨hf, heq.symm⟩)).1 heq.symm
  · refine values_eq_nil fun e he heq => ?_
    exact ((hsorted.1 e he).2 g ((Script.field?_eq_some ht).mpr ⟨hg, heq.symm⟩)).2 f' hf
      (excludes_symm hx) rfl

theorem merge_repeated (hc : f.cardinality = .repeated) (ousted : Bool) (old new : List Value) :
    f.merge s ousted old new = old ++ new := by
  unfold Field.merge
  rw [hc]

theorem merge_set (hc : f.cardinality ≠ .repeated) (ousted : Bool) (old rest : List Value) :
    f.merge s ousted old (v :: rest) = [v.over s f old.head?] := by
  unfold Field.merge
  split
  · rename_i h
    exact absurd h hc
  · rename_i heq _
    cases heq
    rfl
  · rename_i heq _
    cases heq

theorem merge_unset (hc : f.cardinality ≠ .repeated) (ousted : Bool) (old : List Value) :
    f.merge s ousted old [] = if ousted then [] else old := by
  unfold Field.merge
  split
  · rename_i h
    exact absurd h hc
  · rename_i heq _
    cases heq
  · rfl

theorem over_none (v : Value) : v.over s f none = v := by
  unfold Value.over
  split
  · rename_i heq
    cases heq
  · rfl

theorem Suits.over_kept (h : Suits s f v) (old : Option Value) :
    countsAsUnset f (v.over s f old) = false := by
  unfold Value.over
  split
  · rw [countsAsUnset, Value.isDefault, Bool.and_false]
  · exact h.kept

/-- The value that a new one of a field goes over. -/
def older (f : Field) (m : Message) : Option Value :=
  match f.cardinality with
  | .repeated => none
  | _ => m.get? f.number

theorem older_repeated (hc : f.cardinality = .repeated) (m : Message) : older f m = none := by
  unfold older
  rw [hc]

theorem older_singular (hc : f.cardinality ≠ .repeated) (m : Message) :
    older f m = (m.values f.number).head? := by
  unfold older
  split
  · rename_i h
    exact absurd h hc
  · rfl

/-- The entries of a message are merged in one after the other. -/
theorem merge_entry {rest : Message} (ht : t.Regular) (hm : m.Instance s t) (hf : f ∈ t.fields)
    (hn : (Message.entry f.number v rest).Instance s t) :
    m.merge s t (.entry f.number v rest) =
      (put t f (v.over s f (older f m)) m).merge s t rest := by
  obtain ⟨hv, -, halone, hothers⟩ := hn.entry_inv ht hf
  have hself := values_put_self ht hm (hv.over_kept (older f m))
  rw [merge, merge]
  refine congrArg ofList (List.flatMap_congr fun g hg => congrArg _ ?_)
  by_cases hgf : g = f
  · subst hgf
    rw [hself, values, if_pos rfl]
    by_cases hc : g.cardinality = .repeated
    · rw [merge_repeated hc, merge_repeated hc, if_pos hc, older_repeated hc, over_none,
        List.append_assoc, List.singleton_append]
    · have hnot : rest.ousts t g = false := by
        rw [Bool.eq_false_iff, Ne, ousts_iff]
        rintro ⟨h, hh, hx, hset⟩
        exact hset (hothers h hh hx)
      rw [merge_set hc, halone hc, merge_unset hc, hnot, if_neg hc, older_singular hc]
      rfl
  · have hnumber : f.number ≠ g.number := fun h => hgf (Script.number_inj ht hg hf h.symm)
    rw [values, if_neg hnumber, values_put_other ht hf hg hgf]
    by_cases hx : MessageType.excludes f g = true
    · have hc : g.cardinality ≠ .repeated := by
        intro hc
        have hnone := excludes_eq_false ht hg (by simp [hc]) f
        rw [excludes_symm hx] at hnone
        cases hnone
      have hnew : (Message.entry f.number v rest).ousts t g = true :=
        ousts_iff.mpr ⟨f, hf, excludes_symm hx, by simp [values]⟩
      rw [hothers g hg hx, merge_unset hc, merge_unset hc, hnew, if_pos hx]
      simp
    · have hsame : (Message.entry f.number v rest).ousts t g = rest.ousts t g := by
        rw [Bool.eq_iff_iff, ousts_iff, ousts_iff]
        refine exists_congr fun h => and_congr_right fun hh => and_congr_right fun hgh => ?_
        have hne : f.number ≠ h.number := fun heq => by
          rw [Script.number_inj ht hf hh heq] at hx
          exact hx (excludes_symm hgh)
        rw [values, if_neg hne]
      rw [hsame, if_neg hx]

/-- Over nothing, a message stays as it is. -/
theorem empty_merge (ht : t.Regular) (hn : n.Instance s t) : Message.empty.merge s t n = n := by
  rw [merge]
  refine toList_inj ?_
  rw [toList_ofList, hn.toList_eq ht]
  refine List.flatMap_congr fun f hf => congrArg _ ?_
  by_cases hc : f.cardinality = .repeated
  · rw [merge_repeated hc]
    rfl
  · have hlength := hn.values_length_le ht hf hc
    rcases hnew : n.values f.number with _ | ⟨v, _ | ⟨w, rest⟩⟩
    · rw [merge_unset hc]
      exact ite_self []
    · rw [merge_set hc]
      exact congrArg (fun v => [v]) (over_none v)
    · simp [hnew] at hlength

/-- Nothing over it, a message stays as it is. -/
theorem merge_empty (ht : t.Regular) (hm : m.Instance s t) : m.merge s t .empty = m := by
  rw [merge]
  refine toList_inj ?_
  rw [toList_ofList, hm.toList_eq ht]
  refine List.flatMap_congr fun f _ => congrArg _ ?_
  have hnot : Message.empty.ousts t f = false := by
    simp [ousts, values]
  by_cases hc : f.cardinality = .repeated
  · rw [merge_repeated hc]
    exact List.append_nil _
  · rw [values, merge_unset hc, hnot]
    rfl

-- ---------------------------------------------------------------------------
-- Absorbing over a message
-- ---------------------------------------------------------------------------

theorem current_eq_older (f : Field) (m : Message) : current f m =
    match older f m with
    | some (.message old) => old
    | _ => .empty := by
  unfold current older
  cases f.cardinality with
  | repeated => rfl
  | _ => cases m.get? f.number with
    | none => rfl
    | some v => cases v <;> rfl

/-- The reader starts from the message that the new one goes over, or from nothing. -/
theorem over_message {name : String} {type : MessageType} (ht : type.Regular)
    (hk : f.kind = .message name) (htype : s.message? name = some type) (hn : n.Instance s type)
    (m : Message) :
    (Value.message n).over s f (older f m) = .message ((current f m).merge s type n) := by
  have hf : typeOf? s f = some type := by simp only [typeOf?, hk, htype]
  have hempty := empty_merge ht hn
  rw [current_eq_older]
  unfold Value.over
  cases older f m with
  | none => simp [hempty]
  | some old => cases old <;> simp [hf, hempty]

theorem over_of_type (h : typeOf? s f = some t) :
    (Value.message n).over s f (some (.message m)) = .message (m.merge s t n) := by
  unfold Value.over
  simp only [h]

/-- Values other than messages take the place of older ones. -/
theorem over_leaf (hv : ∀ n, v ≠ .message n) (old : Option Value) : v.over s f old = v := by
  unfold Value.over
  split
  · exact absurd rfl (hv _)
  · rfl

/-- A message is absorbed over another one if there is room for it. -/
def MergesIn (s : Schema) (n : Message) : Prop :=
  ∀ t ∈ s.messages, ∀ m room, m.Instance s t → n.Instance s t → n.octets.length < 0x80000000 →
    n.depth ≤ room → absorb s room t m n.records = some (m.merge s t n)

/-- How one record of a written message is absorbed. -/
theorem absorbRecord_over (hs : s.Regular) (ht : t ∈ s.messages) (hm : m.Instance s t)
    (hf : f ∈ t.fields) (hv : Suits s f v) (hsize : v.mark.octets.length < 0x80000000)
    (hd : v.depth ≤ room) (hn : ∀ n, v = .message n → MergesIn s n) :
    absorbRecord s (nestedReader s room) room t m (f.number, v.content) =
      some (put t f (v.over s f (older f m)) m) := by
  have hr := hs.messages t ht
  have hfield : t.field? f.number = some f := (Script.field?_eq_some hr).mpr ⟨hf, rfl⟩
  cases v with
  | message n =>
    obtain ⟨name, type, hk, htype, hmap, hfits⟩ := hv.fits
    have hn' := hv.nested hk htype
    have hsize : n.octets.length < 0x80000000 := by
      simp only [Value.mark, Mark.octets, List.length_append] at hsize
      omega
    have htm := Script.message?_mem htype
    obtain ⟨room, rfl⟩ : ∃ k, room = k + 1 := ⟨room - 1, by simp only [Value.depth] at hd; omega⟩
    have hread := hn n rfl type htm (current f m) room (current_instance hr hm hf hk htype) hn'
      hsize (Nat.le_of_succ_le_succ hd)
    rw [over_message (hs.messages type htm) hk htype hn', Value.content, Value.mark,
      absorbRecord_block hfield hk htype hmap, records?_octets (isNumber_of_fits hfits) hsize]
    simp only [nestedReader, Option.bind_some, hread, Option.map_some]
  | _ =>
    rw [absorbRecord_leaf hfield hv.fits (by simp), over_leaf (by simp)]

theorem nestedReader_delivers (hs : s.Regular) (room : Nat) :
    ∀ read, nestedReader s room = some read → Delivers s read := by
  cases room with
  | zero => nofun
  | succ room =>
    rintro read ⟨⟩
    exact absorb_delivers hs room

theorem mergesIn (hs : s.Regular) (n : Message) : MergesIn s n := by
  induction n using deep_induction with
  | empty =>
    intro t ht m room hm _ _ _
    rw [merge_empty (hs.messages t ht) hm]
    exact absorb_nil
  | entry number v rest ihv ih =>
    intro t ht m room hm hn hsize hd
    have hr := hs.messages t ht
    obtain ⟨⟨f, hfield, -⟩, -⟩ := hn.fits
    obtain ⟨hf, rfl⟩ := (Script.field?_eq_some hr).mp hfield
    obtain ⟨hv, hrest, -⟩ := hn.entry_inv hr hf
    obtain ⟨hdv, hdr⟩ := Nat.max_le.mp hd
    have hmark : v.mark.octets.length < 0x80000000 :=
      Nat.lt_of_le_of_lt (mark_octets_length_le (e := (f.number, v)) List.mem_cons_self) hsize
    have hsizer : rest.octets.length < 0x80000000 := by
      rw [octets, List.length_append] at hsize
      exact Nat.lt_of_le_of_lt (Nat.le_add_left _ _) hsize
    have hfirst := absorbRecord_over hs ht hm hf hv hmark hdv ihv
    have hput := absorbRecord_instance hs ht (nestedReader_delivers hs room) hm hfirst
    rw [records, toList, List.map_cons, absorb_cons, hfirst, Option.bind_some,
      merge_entry hr hm hf hn]
    exact ih t ht _ room hput hrest hsizer hdr

/-- The octets of a message behind any that decode: what comes back is the one merged into the
other. -/
theorem decode?_append {w w' : Bytes} (hs : s.Regular) (ht : t ∈ s.messages)
    (hw : decode? s t w = some m) (hn : n.Instance s t) (hd : n.depth ≤ depthLimit)
    (hw' : n.serialize? = some w') : decode? s t (w ++ w') = some (m.merge s t n) := by
  obtain ⟨hsize, rfl⟩ := serialize?_eq_some.mp hw'
  obtain ⟨list, hlist, habsorb⟩ := decode?_eq_some.mp hw
  have hrecords := records?_octets (isNumber_of_fits hn.fits) hsize
  have hm := decode?_instance hs ht hw
  refine decode?_eq_some.mpr ⟨list ++ n.records, records?_append hlist hrecords, ?_⟩
  rw [absorb_append, habsorb, Option.bind_some]
  exact mergesIn hs n t ht m depthLimit hm hn hsize hd

-- ---------------------------------------------------------------------------
-- Oneofs
-- ---------------------------------------------------------------------------

theorem Instance.orders_or {a b : Nat × Value} (ht : t.Regular) (hm : m.Instance s t)
    (ha : a ∈ m.toList) (hb : b ∈ m.toList) : a = b ∨ t.Orders a.1 b.1 ∨ t.Orders b.1 a.1 := by
  have hpairs := ((instance_iff ht).mp hm).2
  exact List.Pairwise.forall_of_forall_of_flip
    (R := fun a b => a = b ∨ t.Orders a.1 b.1 ∨ t.Orders b.1 a.1) (fun _ _ => .inl rfl)
    (hpairs.imp fun h => .inr (.inl h)) (hpairs.imp fun h => .inr (.inr h)) ha hb

theorem Instance.apart (ht : t.Regular) (hm : m.Instance s t) (hf : f ∈ t.fields)
    (hg : g ∈ t.fields) (hx : MessageType.excludes f g = true) :
    m.values f.number = [] ∨ m.values g.number = [] := by
  cases hv : m.values f.number with
  | nil => exact .inl rfl
  | cons v rest =>
    refine .inr (values_eq_nil fun e he heq => ?_)
    have hfirst : (f.number, v) ∈ m.toList := mem_toList_of_values (hv ▸ List.mem_cons_self)
    have field? (h : Field) (hh : h ∈ t.fields) : t.field? h.number = some h :=
      (Script.field?_eq_some ht).mpr ⟨hh, rfl⟩
    rcases hm.orders_or ht hfirst he with rfl | ho | ho
    · have heq : f.number = g.number := heq
      simp [MessageType.excludes, heq] at hx
    · rw [heq] at ho
      exact (ho.2 g (field? g hg)).2 f hf (excludes_symm hx) rfl
    · rw [heq] at ho
      exact (ho.2 f (field? f hf)).2 g hg hx rfl

theorem Instance.exclusive (hs : s.Regular) (m : Message) :
    ∀ t ∈ s.messages, m.Instance s t → Exclusive s t m := by
  induction m using nested_induction with
  | step m ih =>
    intro t ht hm
    have hr := hs.messages t ht
    refine .mk (fun f hf g hg => hm.apart hr hf hg) fun f hf type htype n hn => ?_
    have hv := hm.suits hr hf hn
    obtain ⟨name, type', hk, htype', -⟩ := hv.fits
    obtain rfl : type' = type := by
      simp only [typeOf?, hk, htype'] at htype
      exact Option.some.inj htype
    exact ih _ (mem_toList_of_values hn) n rfl type' (Script.message?_mem htype')
      (hv.nested hk htype')

-- ---------------------------------------------------------------------------
-- Trees
-- ---------------------------------------------------------------------------

theorem concat_assoc (m n x : Message) : (m.concat n).concat x = m.concat (n.concat x) := by
  refine toList_inj ?_
  simp only [toList_concat, List.append_assoc]

def statements : Field := Bundled.many "Statement" 1 "statements"

theorem ast_field? {f : Field} (h : Bundled.ast.field? number = some f) : f = statements := by
  obtain ⟨hf, -⟩ := (Script.field?_eq_some (Script.bundled_regular.messages _ ast_mem)).mp h
  exact List.mem_singleton.mp hf

/-- All entries of a tree are statements. -/
theorem Instance.numbers (hm : m.Instance bundled Bundled.ast) : ∀ e ∈ m.toList, e.1 = 1 := by
  intro e he
  have hr := Script.bundled_regular.messages _ ast_mem
  obtain ⟨f, hf, hn, -⟩ := ((instance_iff hr).mp hm).1 e he
  obtain rfl := List.mem_singleton.mp hf
  exact hn.symm

theorem put_statements (h : ∀ e ∈ m.toList, e.1 = 1) (v : Value) :
    put Bundled.ast statements v m = m.concat (.entry 1 v .empty) :=
  append_of_le fun e he => Nat.le_of_eq (h e he)

theorem foreign_or_block (h : t.field? number = some f) (hk : f.kind = .message name)
    (content : Content) :
    t.Foreign (number, content) ∨ ∃ bytes, content = .block bytes := by
  cases content with
  | block bytes => exact .inr ⟨bytes, rfl⟩
  | _ =>
    refine .inl fun g hg => ?_
    cases h.symm.trans hg
    simp [Field.takes, hk, FieldKind.wireType, Content.wireType]

/-- A record adds the same to a tree whatever statements stand before. -/
theorem absorbRecord_concat {nested : Option Absorb} (record : Record)
    (hx : x.Instance bundled Bundled.ast) (hm : m.Instance bundled Bundled.ast) :
    absorbRecord bundled nested room Bundled.ast (x.concat m) record =
      (absorbRecord bundled nested room Bundled.ast m record).map x.concat := by
  obtain ⟨number, content⟩ := record
  have skipped (h : Bundled.ast.Foreign (number, content)) :
      absorbRecord bundled nested room Bundled.ast (x.concat m) (number, content) =
        (absorbRecord bundled nested room Bundled.ast m (number, content)).map x.concat := by
    rw [absorbRecord_foreign h, absorbRecord_foreign h]
    split <;> rfl
  cases hf : Bundled.ast.field? number with
  | none => exact skipped fun f hf' => by cases hf.symm.trans hf'
  | some f =>
    obtain rfl := ast_field? hf
    rcases foreign_or_block hf rfl content with h | ⟨bytes, rfl⟩
    · exact skipped h
    · have hstatement := message?_of_mem (t := Bundled.statement) (by simp [bundled]) rfl
      have hall : ∀ e ∈ (x.concat m).toList, e.1 = 1 := by
        rw [toList_concat]
        exact List.forall_mem_append.mpr ⟨hx.numbers, hm.numbers⟩
      have hcurrent (m : Message) : current statements m = .empty := rfl
      have hput (v : Value) : put Bundled.ast statements v (x.concat m) =
          x.concat (put Bundled.ast statements v m) := by
        rw [put_statements hall, put_statements hm.numbers, concat_assoc]
      rw [absorbRecord_block hf rfl hstatement rfl, absorbRecord_block hf rfl hstatement rfl,
        hcurrent, hcurrent]
      simp only [hput, Option.map_bind, Function.comp_def, Option.map_map]

theorem absorb_concat {room : Nat} {list : List Record} (hx : x.Instance bundled Bundled.ast)
    (hm : m.Instance bundled Bundled.ast) :
    absorb bundled room Bundled.ast (x.concat m) list =
      (absorb bundled room Bundled.ast m list).map x.concat := by
  induction list generalizing m with
  | nil => rw [absorb_nil, absorb_nil, Option.map_some]
  | cons record rest ih =>
    rw [absorb_cons, absorb_cons, absorbRecord_concat record hx hm, Option.map_bind]
    cases hfirst : absorbRecord bundled (nestedReader bundled room) room Bundled.ast m record with
    | none => rfl
    | some next =>
      have hnext := absorbRecord_instance Script.bundled_regular ast_mem
        (nestedReader_delivers Script.bundled_regular room) hm hfirst
      exact ih hnext

/-- Any two payloads of trees, one behind the other. -/
theorem decode?_concat {w w' : Bytes} (hm : decode? bundled Bundled.ast w = some m)
    (hn : decode? bundled Bundled.ast w' = some n) :
    decode? bundled Bundled.ast (w ++ w') = some (m.concat n) := by
  obtain ⟨list, hlist, habsorb⟩ := decode?_eq_some.mp hm
  obtain ⟨more, hmore, habsorb'⟩ := decode?_eq_some.mp hn
  have hm := decode?_instance Script.bundled_regular ast_mem hm
  have hbehind := (absorb_concat hm .empty).trans (congrArg (Option.map m.concat) habsorb')
  rw [concat_empty, Option.map_some] at hbehind
  refine decode?_eq_some.mpr ⟨list ++ more, records?_append hlist hmore, ?_⟩
  rw [absorb_append, habsorb, Option.bind_some, hbehind]

end Message

open Message

variable {t : MessageType} {x : Message} {a : Bytes} {path : Text} {session after : Session}

/-- Payloads one behind the other merge. Behind octets that decode to a message, the octets of
another message of the type add its elements to those in place, replace the values that it sets, and
merge its messages into those in place; a member of a oneof puts out the others, so no decoded
message has two. Trees have the statements of the first payload, and then those of the second. -/
theorem concatenation_merges (ht : t ∈ bundled.messages)
    (ha : decode? bundled t a = some x) (hl : Act.Loads path session after) :
    (∀ m w, m.Instance bundled t → m.depth ≤ depthLimit → m.serialize? = some w →
      decode? bundled t (a ++ w) = some (x.merge bundled t m)) ∧
    Exclusive bundled t x ∧
    ∀ v w y z, (Act.decodeTree v path session).1 = .ok y →
      (Act.decodeTree w path session).1 = .ok z →
        Act.decodeTree (v ++ w) path session =
          (.ok ⟨bundled, Bundled.ast, y.message.concat z.message⟩, after) := by
  have hs := Script.bundled_regular
  refine ⟨fun m w hm hd hw => decode?_append hs ht ha hm hd hw,
    Instance.exclusive hs x t ht (decode?_instance hs ht ha), fun v w y z hy hz => ?_⟩
  obtain ⟨m, hm, rfl⟩ := (Act.decodeTree_ok_iff hl).mp hy
  obtain ⟨n, hn, rfl⟩ := (Act.decodeTree_ok_iff hl).mp hz
  rw [Act.decodeTree_eq hl, decode?_concat hm hn]

theorem properties_merge (p q : Value) :
    (Message.entry 3 p .empty).merge bundled Bundled.classDeclaration (.entry 3 q .empty) =
      .entry 3 p (.entry 3 q .empty) := by
  simp [merge, Field.merge, values, ousts, ofList, Bundled.classDeclaration, Bundled.type,
    Bundled.text, Bundled.scalar, Bundled.one, Bundled.many]

theorem indexed_merge : (indexed .empty).merge bundled Bundled.statement (indexed spread) =
    .entry 5 (.message
      (.entry 3 (.message (.entry 2 (.int 0) (.entry 5 (.message .empty) .empty)))
        (.entry 3 (.message (.entry 2 (.int 0) (.entry 5 (.message spread) .empty)))
          .empty))) .empty := by
  have hclass (m n : Message) := over_of_type (t := Bundled.classDeclaration) (m := m) (n := n)
    (s := bundled) (f := ⟨5, "class_declaration", .message (Bundled.qualified "ClassDeclaration"),
      .explicit, some "statement", none⟩) rfl
  simp [merge, Field.merge, indexed, values, ousts, ofList, Bundled.statement, Bundled.type,
    Bundled.alternatives, Bundled.within, Bundled.one, hclass, properties_merge]

theorem indexed_replaced : (indexed .empty).merge bundled Bundled.statement (inBlocks .empty 1) =
    inBlocks .empty 1 := by
  simp [merge, Field.merge, indexed, inBlocks, values, ousts, ofList, Value.over, Bundled.statement,
    Bundled.type, Bundled.alternatives, Bundled.within, Bundled.one, MessageType.excludes]

/-- Two classes become one with both properties, and a block puts out a class. -/
theorem classes_merge :
    let class' := indexed .empty
    let more := indexed spread
    let block := inBlocks .empty 1
    let zero := numeric .empty
    let minus := numeric (literalOf ⟨0x8000000000000000⟩)
    (Bundled.statement ∈ bundled.messages ∧
      decode? bundled Bundled.statement class'.octets = some class' ∧
        Act.Loads informedPath .informed .informed) ∧
    (more.Instance bundled Bundled.statement ∧ more.depth ≤ depthLimit ∧
      more.serialize? = some more.octets ∧
        decode? bundled Bundled.statement (class'.octets ++ more.octets) =
          some (.entry 5 (.message
            (.entry 3 (.message (.entry 2 (.int 0) (.entry 5 (.message .empty) .empty)))
              (.entry 3 (.message (.entry 2 (.int 0) (.entry 5 (.message spread) .empty)))
                .empty))) .empty)) ∧
    (block.Instance bundled Bundled.statement ∧ block.depth ≤ depthLimit ∧
      block.serialize? = some block.octets ∧
        decode? bundled Bundled.statement (class'.octets ++ block.octets) = some block) ∧
    (Act.decodeTree zero.octets informedPath .informed).1 = .ok ⟨bundled, Bundled.ast, zero⟩ ∧
    (Act.decodeTree minus.octets informedPath .informed).1 = .ok ⟨bundled, Bundled.ast, minus⟩ ∧
    Act.decodeTree (zero.octets ++ minus.octets) informedPath .informed =
      (.ok ⟨bundled, Bundled.ast, zero.concat minus⟩, .informed) := by
  intro class' more block zero minus
  have hclass : class'.Instance bundled Bundled.statement := indexed_instance .empty
  have hmore : more.Instance bundled Bundled.statement := indexed_instance spread_instance
  have hblock : block.Instance bundled Bundled.statement := inBlocks_instance .empty 1
  have ht : Bundled.statement ∈ bundled.messages := by simp [bundled]
  have hread : decode? bundled Bundled.statement class'.octets = some class' :=
    (hclass.decode? (by decide)).trans (if_pos (by decide))
  have hzero := numeric_decodes .empty (by decide) (by decide)
  have hminus : (Act.decodeTree minus.octets informedPath .informed).1 =
      .ok ⟨bundled, Bundled.ast, minus⟩ :=
    numeric_decodes (literalOf_instance rfl) (by decide) (by decide)
  obtain ⟨hmerge, -, htrees⟩ := concatenation_merges ht hread Session.informed_loads
  have hdm : more.depth ≤ depthLimit := by decide
  have hwm : more.serialize? = some more.octets := by decide
  have hdb : block.depth ≤ depthLimit := by decide
  have hwb : block.serialize? = some block.octets := by decide
  have hboth := hmerge more more.octets hmore hdm hwm
  have hreplaced := hmerge block block.octets hblock hdb hwb
  refine ⟨⟨ht, hread, Session.informed_loads⟩, ⟨hmore, hdm, hwm, hboth.trans ?_⟩,
    ⟨hblock, hdb, hwb, hreplaced.trans ?_⟩, hzero, hminus, htrees _ _ _ _ hzero hminus⟩
  · simp only [class', more, indexed_merge]
  · simp only [class', block, indexed_replaced]

end Treewire
