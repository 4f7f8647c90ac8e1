import Treewire.Wire

/-!
# Records read back

How items are written, and that `items?` and `records?` read them again. Every item is written in
the one way the format prefers: varints as short as they can be, lengths without padding.

`items?_flatMap`: a run of items reads as exactly these items.
-/

namespace Treewire.Wire

-- ---------------------------------------------------------------------------
-- Numbers
-- ---------------------------------------------------------------------------

/-- Groups of seven bits, least significant first; all octets but the last have the top bit set. -/
def septets : Nat → Nat → Bytes
  | 0, n => [UInt8.ofNat n]
  | k + 1, n =>
    if n < 0x80 then [UInt8.ofNat n]
    else UInt8.ofNat (0x80 + n % 0x80) :: septets k (n / 0x80)

/-- A number of at most 64 bits, in at most ten octets. -/
def varintOctets (n : Nat) : Bytes := septets 9 n

/-- The given number of octets, least significant first. -/
def fixedOctets : Nat → Nat → Bytes
  | 0, _ => []
  | k + 1, n => UInt8.ofNat (n % 0x100) :: fixedOctets k (n / 0x100)

theorem septets_of_lt (h : n < 0x80) : septets k n = [UInt8.ofNat n] := by
  cases k
  · rfl
  · rw [septets, if_pos h]

theorem length_septets_le (k n : Nat) : (septets k n).length ≤ k + 1 := by
  induction k generalizing n with
  | zero => exact Nat.le_refl 1
  | succ k ih =>
    rw [septets]
    split
    · exact Nat.le_add_left 1 _
    · exact Nat.succ_le_succ (ih _)

theorem length_varintOctets_le (n : Nat) : (varintOctets n).length ≤ 10 := length_septets_le 9 n

theorem varint?_singleton (h : n < 0x80) :
    varint? (l + 1) (UInt8.ofNat n :: rest) = some (n, rest) := by
  have hb : (UInt8.ofNat n).toNat = n := by
    rw [UInt8.toNat_ofNat']
    omega
  rw [varint?, hb, if_pos h]

theorem varint?_septets (hk : l ≤ k) (hn : n < Nat.pow 0x80 (l + 1)) :
    varint? (l + 1) (septets k n ++ rest) = some (n, rest) := by
  induction l generalizing k n with
  | zero =>
    have hn : n < 0x80 := hn
    rw [septets_of_lt hn]
    exact varint?_singleton hn
  | succ l ih =>
    by_cases hs : n < 0x80
    · rw [septets_of_lt hs]
      exact varint?_singleton hs
    · obtain ⟨k, rfl⟩ : ∃ j, k = j + 1 := ⟨k - 1, by omega⟩
      have hb : (UInt8.ofNat (0x80 + n % 0x80)).toNat = 0x80 + n % 0x80 := by
        rw [UInt8.toNat_ofNat']
        omega
      have hn : n < Nat.pow 0x80 (l + 1) * 0x80 := hn
      rw [septets, if_neg hs, List.cons_append, varint?, hb, if_neg (by omega),
        ih (by omega) (by omega)]
      simp only [Option.map_some, Option.some.injEq, Prod.mk.injEq, and_true]
      omega

theorem varint?_varintOctets (n : UInt64) :
    varint? 10 (varintOctets n.toNat ++ rest) = some (n.toNat, rest) :=
  varint?_septets (Nat.le_refl 9) (Nat.lt_trans n.toNat_lt (by decide))

/-- Tags and lengths take five octets at most. -/
theorem varint?_five (h : n < 0x100000000) :
    varint? 5 (varintOctets n ++ rest) = some (n, rest) :=
  varint?_septets (by decide) (Nat.lt_trans h (by decide))

theorem fixed?_fixedOctets (h : n < Nat.pow 0x100 k) :
    fixed? k (fixedOctets k n ++ rest) = some (n, rest) := by
  induction k generalizing n with
  | zero =>
    have h : n < 1 := h
    obtain rfl : n = 0 := by omega
    rfl
  | succ k ih =>
    have h : n < Nat.pow 0x100 k * 0x100 := h
    have hb : (UInt8.ofNat (n % 0x100)).toNat = n % 0x100 := by
      rw [UInt8.toNat_ofNat']
      omega
    rw [fixedOctets, List.cons_append, fixed?, ih (by omega), hb]
    simp only [Option.map_some, Option.some.injEq, Prod.mk.injEq, and_true]
    omega

-- ---------------------------------------------------------------------------
-- Items
-- ---------------------------------------------------------------------------

/-- The wire type that announces a mark. -/
def Mark.wireType : Mark → Nat
  | .varint _ => 0
  | .fixed64 _ => 1
  | .block _ => 2
  | .openGroup => 3
  | .closeGroup => 4
  | .fixed32 _ => 5

def Mark.octets : Mark → Bytes
  | .varint v => varintOctets v.toNat
  | .fixed64 v => fixedOctets 8 v.toNat
  | .fixed32 v => fixedOctets 4 v.toNat
  | .block bytes => varintOctets bytes.length ++ bytes
  | .openGroup | .closeGroup => []

/-- A tag holds the field number above three bits for the wire type. -/
def itemOctets (number : Nat) (mark : Mark) : Bytes :=
  varintOctets (8 * number + mark.wireType) ++ mark.octets

/-- Field numbers take 29 bits, and zero is none. -/
def IsNumber (number : Nat) : Prop := 0 < number ∧ number < 0x20000000

instance (number : Nat) : Decidable (IsNumber number) := by
  unfold IsNumber
  infer_instance

theorem wireType_lt (mark : Mark) : mark.wireType < 8 := by
  cases mark <;> simp [Mark.wireType]

theorem tag?_varintOctets (hn : IsNumber number) (hw : w < 8) :
    tag? (varintOctets (8 * number + w) ++ rest) = some ((number, w), rest) := by
  obtain ⟨hp, hl⟩ := hn
  have hd : (8 * number + w) / 8 = number := by omega
  have hm : (8 * number + w) % 8 = w := by omega
  rw [tag?, varint?_five (by omega)]
  simp only [hd, hm]
  rw [if_pos (by omega)]

theorem block?_append (bytes rest : Bytes) :
    block? bytes.length (bytes ++ rest) = some (bytes, rest) := by
  simp [block?]

theorem mark?_octets (hs : mark.octets.length < 0x80000000) :
    mark? mark.wireType (mark.octets ++ rest) = some (mark, rest) := by
  cases mark with
  | varint v => simp [mark?, Mark.wireType, Mark.octets, varint?_varintOctets]
  | fixed64 v =>
    have h : v.toNat < Nat.pow 0x100 8 := v.toNat_lt
    simp [mark?, Mark.wireType, Mark.octets, fixed?_fixedOctets h]
  | fixed32 v =>
    have h : v.toNat < Nat.pow 0x100 4 := v.toNat_lt
    simp [mark?, Mark.wireType, Mark.octets, fixed?_fixedOctets h]
  | block bytes =>
    have hl : bytes.length < 0x80000000 := by
      simp only [Mark.octets, List.length_append] at hs
      omega
    simp only [mark?, Mark.wireType, Mark.octets, List.append_assoc, length?,
      varint?_five (Nat.lt_trans hl (by decide))]
    rw [if_pos hl]
    simp [block?_append]
  | openGroup => rfl
  | closeGroup => rfl

theorem item?_itemOctets (hn : IsNumber number) (hs : mark.octets.length < 0x80000000) :
    item? (itemOctets number mark ++ rest) = some ((number, mark), rest) := by
  simp [item?, itemOctets, List.append_assoc, tag?_varintOctets hn (wireType_lt mark),
    mark?_octets hs]

theorem varintOctets_ne_nil (n : Nat) : varintOctets n ≠ [] := by
  unfold varintOctets septets
  split <;> simp

theorem itemOctets_ne_nil (number : Nat) (mark : Mark) : itemOctets number mark ≠ [] := by
  simp [itemOctets, varintOctets_ne_nil]

theorem items?_nil : items? [] = some [] := by
  rw [items?, if_pos rfl]

/-- An item in front is read as such, whatever follows. -/
theorem items?_itemOctets_append (hn : IsNumber number)
    (hs : mark.octets.length < 0x80000000) :
    items? (itemOctets number mark ++ rest) = (items? rest).map ((number, mark) :: ·) := by
  have hne : itemOctets number mark ++ rest ≠ [] := by
    simp [itemOctets_ne_nil]
  have hlt : rest.length < (itemOctets number mark ++ rest).length := by
    have := List.length_pos_iff.mpr (itemOctets_ne_nil number mark)
    rw [List.length_append]
    omega
  rw [items?, if_neg hne, item?_itemOctets hn hs]
  simp only [hlt, ↓reduceIte]

/-- The items of a run of items are these items. -/
theorem items?_flatMap {items : List Item}
    (h : ∀ e ∈ items, IsNumber e.1 ∧ e.2.octets.length < 0x80000000) :
    items? (items.flatMap fun e => itemOctets e.1 e.2) = some items := by
  induction items with
  | nil => exact items?_nil
  | cons e rest ih =>
    obtain ⟨hn, hs⟩ := h e (by simp)
    rw [List.flatMap_cons, items?_itemOctets_append hn hs,
      ih fun e he => h e (List.mem_cons_of_mem _ he)]
    rfl

end Treewire.Wire
