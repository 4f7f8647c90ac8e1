import Treewire.Text.Utf8

/-!
# UTF-8 reads back

`decodeString?_encodeString`: the strict reader gives back every string from its octets. One
character at a time is enough, because `next` takes exactly the octets of the character in front,
whatever follows them.
-/

namespace Treewire.Utf8

/-- The code points of characters: the gap of the surrogates is left out. -/
theorem toNat_bounds (c : Char) : c.toNat < 0xD800 ∨ 0xDFFF < c.toNat ∧ c.toNat < 0x110000 := by
  have h := c.valid
  simp only [UInt32.isValidChar, Nat.isValidChar] at h
  exact h

/-! ## One continuation octet -/

theorem ofNat_between {low high : UInt8} (hl : low.toNat ≤ n) (hh : n ≤ high.toNat) :
    low ≤ UInt8.ofNat n ∧ UInt8.ofNat n ≤ high := by
  have hlt : high.toNat < 256 := high.toNat_lt
  have hn : (UInt8.ofNat n).toNat = n := by
    rw [UInt8.toNat_ofNat']
    omega
  rw [UInt8.le_iff_toNat_le, UInt8.le_iff_toNat_le, hn]
  exact ⟨hl, hh⟩

/-- A six-bit group within range is taken, and the next one may be anything. -/
theorem tails_succ {low high : UInt8} {g : Nat} (hg : g < 64) (hl : low.toNat ≤ 0x80 + g)
    (hh : 0x80 + g ≤ high.toNat) :
    tails (k + 1) low high acc (UInt8.ofNat (0x80 + g) :: rest) =
      tails k 0x80 0xBF (acc * 64 + g) rest := by
  have hn : (UInt8.ofNat (0x80 + g)).toNat - 0x80 = g := by
    rw [UInt8.toNat_ofNat']
    omega
  rw [tails, if_pos (ofNat_between hl hh), hn]

theorem tails_zero : tails 0 low high acc rest = (some acc, rest) := rfl

/-! ## One character -/

theorem next_of_lead (hb : lead? b = some ⟨k, bits, low, high⟩)
    (ht : tails k low high bits octets = (some c.toNat, rest)) :
    next b octets = (some c, rest) := by
  simp [next, hb, ht, Char.ofNat_toNat]

theorem toNat_ofNat_of_lt (h : n < 256) : (UInt8.ofNat n).toNat = n := by
  rw [UInt8.toNat_ofNat']
  omega

theorem lead?_one (h : n < 0x80) : lead? (UInt8.ofNat n) = some ⟨0, n, 0x80, 0xBF⟩ := by
  simp [lead?, toNat_ofNat_of_lt (n := n) (by omega), h]

theorem lead?_two (hl : 2 ≤ g) (hh : g < 32) :
    lead? (UInt8.ofNat (0xC0 + g)) = some ⟨1, g, 0x80, 0xBF⟩ := by
  have hn := toNat_ofNat_of_lt (n := 0xC0 + g) (by omega)
  simp only [lead?, hn]
  rw [if_neg (by omega), if_neg (by omega), if_pos (by omega)]
  simp

/-- The second octet of three is bounded so that no number is written too long and no surrogate
is written at all. -/
theorem lead?_three (h : g < 16) :
    lead? (UInt8.ofNat (0xE0 + g)) =
      some ⟨2, g, if g = 0 then 0xA0 else 0x80, if g = 0xD then 0x9F else 0xBF⟩ := by
  have hn := toNat_ofNat_of_lt (n := 0xE0 + g) (by omega)
  simp only [lead?, hn]
  rw [if_neg (by omega), if_neg (by omega), if_neg (by omega)]
  by_cases h0 : g = 0
  · simp [h0]
  · by_cases hd : g = 0xD
    · simp [hd]
    · rw [if_neg (by omega), if_neg (by omega), if_pos (by omega)]
      simp [h0, hd]

theorem lead?_four (h : g < 5) :
    lead? (UInt8.ofNat (0xF0 + g)) =
      some ⟨3, g, if g = 0 then 0x90 else 0x80, if g = 4 then 0x8F else 0xBF⟩ := by
  have hn := toNat_ofNat_of_lt (n := 0xF0 + g) (by omega)
  simp only [lead?, hn]
  rw [if_neg (by omega), if_neg (by omega), if_neg (by omega), if_neg (by omega),
    if_neg (by omega), if_neg (by omega)]
  by_cases h0 : g = 0
  · simp [h0]
  · by_cases h4 : g = 4
    · simp [h4]
    · rw [if_neg (by omega), if_pos (by omega)]
      simp [h0, h4]

/-- The octets of a character are read as that character, and what follows is left. -/
theorem next_encodeChar (c : Char) (rest : Bytes) :
    ∃ b octets, encodeChar c ++ rest = b :: octets ∧ next b octets = (some c, rest) := by
  have hc := toNat_bounds c
  simp only [encodeChar]
  split
  · rename_i h
    exact ⟨_, _, rfl, next_of_lead (lead?_one h) rfl⟩
  split
  · simp only [List.cons_append, List.nil_append]
    refine ⟨_, _, rfl, next_of_lead (lead?_two (by omega) (by omega)) ?_⟩
    rw [tails_succ (by omega) (by simp) (by simp; omega), tails_zero]
    congr 2
    omega
  split
  · simp only [List.cons_append, List.nil_append]
    refine ⟨_, _, rfl, next_of_lead (lead?_three (by omega)) ?_⟩
    rw [tails_succ (by omega), tails_succ (by omega) (by simp) (by simp; omega), tails_zero]
    · congr 2
      omega
    · split
      · simp
        omega
      · simp
    · split
      · simp
        omega
      · simp
        omega
  · simp only [List.cons_append, List.nil_append]
    refine ⟨_, _, rfl, next_of_lead (lead?_four (by omega)) ?_⟩
    rw [tails_succ (by omega), tails_succ (by omega) (by simp) (by simp; omega),
      tails_succ (by omega) (by simp) (by simp; omega), tails_zero]
    · congr 2
      omega
    · split
      · simp
        omega
      · simp
    · split
      · simp
        omega
      · simp
        omega

/-! ## Whole strings -/

theorem scan_encodeChar_append (c : Char) (rest : Bytes) :
    scan (encodeChar c ++ rest) = some c :: scan rest := by
  obtain ⟨b, octets, he, hn⟩ := next_encodeChar c rest
  rw [he, scan, hn]

theorem scan_encode (cs : List Char) : scan (encode cs) = cs.map some := by
  induction cs with
  | nil => simp [encode, scan]
  | cons c rest ih =>
    rw [encode, List.flatMap_cons, scan_encodeChar_append, List.map_cons]
    exact congrArg _ ih

theorem decode?_encode (cs : List Char) : decode? (encode cs) = some cs := by
  rw [decode?, scan_encode]
  induction cs with
  | nil => rfl
  | cons c rest ih => simp_all [List.mapM_cons]

theorem decodeLossy_encode (cs : List Char) : decodeLossy (encode cs) = cs := by
  rw [decodeLossy, scan_encode, List.map_map]
  exact List.map_id cs

theorem decodeString?_encodeString (s : String) : decodeString? (encodeString s) = some s := by
  simp [decodeString?, encodeString, decode?_encode, String.ofList_toList]

-- ---------------------------------------------------------------------------
-- How many octets
-- ---------------------------------------------------------------------------

theorem length_encode_of_ascii {cs : List Char} (h : ∀ c ∈ cs, c.toNat < 0x80) :
    (encode cs).length = cs.length := by
  induction cs with
  | nil => rfl
  | cons c rest ih =>
    rw [List.forall_mem_cons] at h
    rw [encode, List.flatMap_cons, List.length_append, encodeChar, if_pos h.1]
    exact (Nat.add_comm 1 _).trans (congrArg (· + 1) (ih h.2))

theorem length_encodeChar_pos (c : Char) : 1 ≤ (encodeChar c).length := by
  rw [encodeChar]
  split
  · exact Nat.le_refl _
  split
  · exact Nat.le_add_left 1 1
  split <;> exact Nat.le_add_left 1 _

theorem length_le_length_encode (cs : List Char) : cs.length ≤ (encode cs).length := by
  induction cs with
  | nil => exact Nat.le_refl _
  | cons c rest ih =>
    rw [encode, List.flatMap_cons, List.length_append, List.length_cons, Nat.add_comm]
    exact Nat.add_le_add (length_encodeChar_pos c) ih

end Treewire.Utf8
