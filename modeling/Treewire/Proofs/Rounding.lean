import Mathlib.Algebra.Order.Field.Power
import Mathlib.Algebra.Order.Ring.Rat
import Mathlib.Data.Rat.Cast.Order
import Mathlib.Tactic.FieldSimp
import Mathlib.Tactic.Linarith
import Mathlib.Tactic.NormNum
import Mathlib.Tactic.Positivity
import Mathlib.Tactic.Ring
import Treewire.Number.Decimal

/-!
# Rounding to the nearest number

Around each number of a binary format lie the rationals that round to it. `Neighbourhood.Contains`
says which these are, and `round_of_contains` that whatever lies there is rounded to the bits of the
number. The bits that `unpack` reads are those again.
-/

namespace Treewire

-- ---------------------------------------------------------------------------
-- Fractions
-- ---------------------------------------------------------------------------

namespace Quotient

/-- The rational that a fraction stands for. -/
def value (q : Quotient) : ℚ := q.num / q.den

theorem scaled_value {base : Nat} (hb : 0 < base) (mantissa : Nat) (exponent : Int) :
    (scaled mantissa base exponent).value = mantissa * (base : ℚ) ^ exponent := by
  have hbase : (base : ℚ) ≠ 0 := by positivity
  unfold scaled value
  by_cases he : 0 ≤ exponent
  · obtain ⟨n, rfl⟩ := Int.eq_ofNat_of_zero_le he
    simp
  · obtain ⟨n, hn⟩ := Int.eq_ofNat_of_zero_le (Int.le_of_lt (Int.neg_pos.mpr (Int.not_le.mp he)))
    obtain rfl : exponent = -(n : Int) := by omega
    rw [if_neg he]
    simp [div_eq_mul_inv]

/-- A rational is nearest to a natural; of two naturals as near, the even one is meant. -/
structure Nearest (x : ℚ) (n : Nat) : Prop where
  low : (n : ℚ) - 1 / 2 ≤ x
  high : x ≤ n + 1 / 2
  even : x = n - 1 / 2 ∨ x = n + 1 / 2 → n % 2 = 0

/-- There is one nearest natural. -/
theorem Nearest.unique {x : ℚ} (h : Nearest x n) (h' : Nearest x k) : n = k := by
  have hle : (n : ℚ) ≤ k + 1 := by linarith [h.low, h'.high]
  have hge : (k : ℚ) ≤ n + 1 := by linarith [h.high, h'.low]
  have hle : n ≤ k + 1 := by exact_mod_cast hle
  have hge : k ≤ n + 1 := by exact_mod_cast hge
  -- Neighbours that are both nearest have the rational halfway between them, and are both even.
  rcases (by omega : n = k ∨ n = k + 1 ∨ k = n + 1) with rfl | rfl | rfl
  · rfl
  · have hlow := h.low
    push_cast at hlow
    have hx : x = k + 1 / 2 := le_antisymm h'.high (by linarith)
    have heven := h.even (.inl (by push_cast; linarith))
    have heven' := h'.even (.inr hx)
    omega
  · have hlow := h'.low
    push_cast at hlow
    have hx : x = n + 1 / 2 := le_antisymm h.high (by linarith)
    have heven := h.even (.inr hx)
    have heven' := h'.even (.inl (by push_cast; linarith))
    omega

/-- Rounding gives the nearest natural. -/
theorem nearest_round {q : Quotient} (hd : 0 < q.den) : Nearest q.value q.round := by
  have hden : (0 : ℚ) < q.den := by exact_mod_cast hd
  have hdivision := Nat.div_add_mod q.num q.den
  have hrest := Nat.mod_lt q.num hd
  -- The bounds, without fractions.
  have hbounds : 2 * (q.round * q.den) ≤ 2 * q.num + q.den ∧
      2 * q.num ≤ 2 * (q.round * q.den) + q.den ∧
      (2 * q.num + q.den = 2 * (q.round * q.den) ∨ 2 * q.num = 2 * (q.round * q.den) + q.den →
        q.round % 2 = 0) := by
    rw [Nat.mul_comm q.den] at hdivision
    unfold round
    dsimp only
    generalize q.num / q.den = whole at hdivision
    generalize q.num % q.den = rest at hdivision hrest
    split
    · omega
    split
    · rw [Nat.add_one_mul whole]
      omega
    · rcases Nat.mod_two_eq_zero_or_one whole with h | h
      · rw [h, Nat.add_zero]
        omega
      · rw [h, Nat.add_one_mul whole]
        omega
  obtain ⟨hlow, hhigh, heven⟩ := hbounds
  have hlow : (2 : ℚ) * (q.round * q.den) ≤ 2 * q.num + q.den := by exact_mod_cast hlow
  have hhigh : (2 : ℚ) * q.num ≤ 2 * (q.round * q.den) + q.den := by exact_mod_cast hhigh
  refine ⟨?_, ?_, fun htie => heven ?_⟩
  · rw [value, le_div_iff₀ hden]
    linarith
  · rw [value, div_le_iff₀ hden]
    linarith
  · rw [value, div_eq_iff hden.ne', div_eq_iff hden.ne'] at htie
    refine htie.imp (fun h => ?_) fun h => ?_
    · have hq : (2 : ℚ) * q.num + q.den = 2 * (q.round * q.den) := by linarith
      exact_mod_cast hq
    · have hq : (2 : ℚ) * q.num = 2 * (q.round * q.den) + q.den := by linarith
      exact_mod_cast hq

theorem round_of_nearest {q : Quotient} (hd : 0 < q.den) (h : Nearest q.value n) : q.round = n :=
  (nearest_round hd).unique h

end Quotient

-- ---------------------------------------------------------------------------
-- Formats
-- ---------------------------------------------------------------------------

namespace BinaryFormat

variable {f : BinaryFormat} {q : Quotient} {m : Nat} {e : Int}

/-- A power of two times a denominator, without fractions. -/
theorem reached_iff (hd : 0 < q.den) (g : Int) :
    (if 0 ≤ g then q.den * Nat.pow 2 g.toNat ≤ q.num else q.den ≤ q.num * Nat.pow 2 (-g).toNat) ↔
      (2 : ℚ) ^ g ≤ q.value := by
  have hden : (0 : ℚ) < q.den := by exact_mod_cast hd
  rw [Quotient.value, le_div_iff₀ hden]
  by_cases hg : 0 ≤ g
  · obtain ⟨n, rfl⟩ := Int.eq_ofNat_of_zero_le hg
    rw [if_pos hg, zpow_natCast, mul_comm, Int.toNat_natCast, Nat.pow_eq]
    exact_mod_cast Iff.rfl
  · obtain ⟨n, hn⟩ := Int.eq_ofNat_of_zero_le (Int.le_of_lt (Int.neg_pos.mpr (Int.not_le.mp hg)))
    obtain rfl : g = -(n : Int) := by omega
    have hpow : (0 : ℚ) < 2 ^ n := by positivity
    rw [if_neg hg, zpow_neg, zpow_natCast, Int.neg_neg, Int.toNat_natCast, Nat.pow_eq,
      inv_mul_le_iff₀ hpow, mul_comm]
    exact_mod_cast Iff.rfl

theorem binaryExponent_spec (hn : 0 < q.num) (hd : 0 < q.den) :
    (2 : ℚ) ^ binaryExponent q ≤ q.value ∧ q.value < 2 ^ (binaryExponent q + 1) := by
  have hden : (0 : ℚ) < q.den := by exact_mod_cast hd
  have hnum : (0 : ℚ) < q.num := by exact_mod_cast hn
  have two : (2 : ℚ) ≠ 0 := by norm_num
  have hnl : (2 : ℚ) ^ q.num.log2 ≤ q.num := by exact_mod_cast Nat.log2_self_le hn.ne'
  have hnu : (q.num : ℚ) < 2 ^ (q.num.log2 + 1) := by exact_mod_cast Nat.lt_log2_self
  have hdl : (2 : ℚ) ^ q.den.log2 ≤ q.den := by exact_mod_cast Nat.log2_self_le hd.ne'
  have hdu : (q.den : ℚ) < 2 ^ (q.den.log2 + 1) := by exact_mod_cast Nat.lt_log2_self
  have hreached := reached_iff hd ((q.num.log2 : Int) - (q.den.log2 : Int))
  unfold binaryExponent
  dsimp only
  generalize hg : (q.num.log2 : Int) - (q.den.log2 : Int) = g at hreached
  -- The logarithms of numerator and denominator leave two exponents.
  have hupper : q.value < 2 ^ (g + 1) := by
    rw [Quotient.value, div_lt_iff₀ hden]
    calc (q.num : ℚ) < 2 ^ (q.num.log2 + 1) := hnu
      _ = 2 ^ (g + 1) * 2 ^ q.den.log2 := by
        rw [← zpow_natCast, ← zpow_natCast, ← zpow_add₀ two]
        congr 1
        push_cast
        omega
      _ ≤ 2 ^ (g + 1) * q.den := by gcongr
  have hlower : (2 : ℚ) ^ (g - 1) ≤ q.value := by
    rw [Quotient.value, le_div_iff₀ hden]
    calc (2 : ℚ) ^ (g - 1) * q.den ≤ 2 ^ (g - 1) * 2 ^ (q.den.log2 + 1) := by gcongr
      _ = 2 ^ q.num.log2 := by
        rw [← zpow_natCast, ← zpow_natCast, ← zpow_add₀ two]
        congr 1
        push_cast
        omega
      _ ≤ q.num := hnl
  by_cases h : if 0 ≤ g then q.den * Nat.pow 2 g.toNat ≤ q.num
      else q.den ≤ q.num * Nat.pow 2 (-g).toNat
  · rw [if_pos h]
    exact ⟨hreached.mp h, hupper⟩
  · rw [if_neg h, Int.sub_add_cancel]
    exact ⟨hlower, not_le.mp fun hle => h (hreached.mpr hle)⟩

/-- A positive number of a format, `m · 2 ^ e`, in the one way in which the format has it. -/
structure Represents (f : BinaryFormat) (m : Nat) (e : Int) : Prop where
  positive : 0 < m
  below : m < 2 * 2 ^ f.fractionBits
  least : f.leastExponent ≤ e
  normal : e ≠ f.leastExponent → 2 ^ f.fractionBits ≤ m
  finite : (e - f.leastExponent).toNat * 2 ^ f.fractionBits + m < f.infinity

/-- The magnitude bits of a number. -/
def bitsOf (f : BinaryFormat) (m : Nat) (e : Int) : Nat :=
  (e - f.leastExponent).toNat * 2 ^ f.fractionBits + m

/-- The mantissa is the fraction in units of the last place, rounded. -/
theorem roundMagnitude_of_nearest (hn : 0 < q.num) (hd : 0 < q.den)
    (he : max (binaryExponent q - f.fractionBits) f.leastExponent = e)
    (hm : Quotient.Nearest (q.value / 2 ^ e) m) :
    f.roundMagnitude q = min (f.bitsOf m e) f.infinity := by
  unfold roundMagnitude bitsOf
  rw [if_neg hn.ne', he, Nat.pow_eq]
  dsimp only
  have hmantissa : (if 0 ≤ e then Quotient.round ⟨q.num, q.den * Nat.pow 2 e.toNat⟩
      else Quotient.round ⟨q.num * Nat.pow 2 (-e).toNat, q.den⟩) = m := by
    by_cases h : 0 ≤ e
    · obtain ⟨n, rfl⟩ := Int.eq_ofNat_of_zero_le h
      rw [if_pos h]
      refine Quotient.round_of_nearest (Nat.mul_pos hd (Nat.pow_pos Nat.two_pos)) ?_
      have hvalue : (Quotient.mk q.num (q.den * Nat.pow 2 (n : Int).toNat)).value =
          q.value / 2 ^ (n : Int) := by
        simp [Quotient.value, div_div]
      rwa [hvalue]
    · obtain ⟨n, hn⟩ := Int.eq_ofNat_of_zero_le (Int.le_of_lt (Int.neg_pos.mpr (Int.not_le.mp h)))
      obtain rfl : e = -(n : Int) := by omega
      rw [if_neg h]
      refine Quotient.round_of_nearest hd ?_
      have hvalue : (Quotient.mk (q.num * Nat.pow 2 (-(-(n : Int))).toNat) q.den).value =
          q.value / 2 ^ (-(n : Int)) := by
        simp [Quotient.value, mul_div_right_comm]
      rwa [hvalue]
  rw [hmantissa]

end BinaryFormat

-- ---------------------------------------------------------------------------
-- Neighbourhoods
-- ---------------------------------------------------------------------------

namespace Decimal

/-- Whether a rational lies in a neighbourhood. -/
structure Neighbourhood.Contains (n : Neighbourhood) (x : ℚ) : Prop where
  low : (n.low : ℚ) * 2 ^ n.exponent < x ∨ n.closed ∧ n.low * 2 ^ n.exponent = x
  high : x < n.high * 2 ^ n.exponent ∨ n.closed ∧ x = n.high * 2 ^ n.exponent

variable {f : BinaryFormat} {q : Quotient} {m : Nat} {e : Int} {x : ℚ}

/-- Around the least number of a binade the lower bound is nearer. -/
def IsNarrow (f : BinaryFormat) (m : Nat) (e : Int) : Prop :=
  m = 2 ^ f.fractionBits ∧ e ≠ f.leastExponent

theorem zpow_sub_two (e : Int) : (2 : ℚ) ^ (e - 2) = 2 ^ e / 4 := by
  rw [zpow_sub₀ (by norm_num)]
  norm_num

theorem high_neighbourhood (f : BinaryFormat) (m : Nat) (e : Int) :
    ((neighbourhood f m e).high : ℚ) * 2 ^ (neighbourhood f m e).exponent =
      (m + 1 / 2) * 2 ^ e := by
  simp only [neighbourhood, zpow_sub_two]
  push_cast
  ring

theorem low_neighbourhood (hm : 0 < m) (hn : ¬IsNarrow f m e) :
    ((neighbourhood f m e).low : ℚ) * 2 ^ (neighbourhood f m e).exponent =
      (m - 1 / 2) * 2 ^ e := by
  have hlow : (neighbourhood f m e).low = 4 * m - 2 := congrArg (4 * m - ·) (if_neg hn)
  have hexponent : (neighbourhood f m e).exponent = e - 2 := rfl
  rw [hlow, hexponent, zpow_sub_two, Nat.cast_sub (by omega)]
  push_cast
  ring

theorem low_neighbourhood_narrow (hm : 0 < m) (hn : IsNarrow f m e) :
    ((neighbourhood f m e).low : ℚ) * 2 ^ (neighbourhood f m e).exponent =
      (m - 1 / 4) * 2 ^ e := by
  have hlow : (neighbourhood f m e).low = 4 * m - 1 := congrArg (4 * m - ·) (if_pos hn)
  have hexponent : (neighbourhood f m e).exponent = e - 2 := rfl
  rw [hlow, hexponent, zpow_sub_two, Nat.cast_sub (by omega)]
  push_cast
  ring

theorem closed_neighbourhood : (neighbourhood f m e).closed = true ↔ m % 2 = 0 := beq_iff_eq

/-- The bounds of a neighbourhood in units of the last place. -/
theorem contains_bounds (hm : 0 < m) (h : (neighbourhood f m e).Contains x) :
    (m : ℚ) - 1 / 2 ≤ x / 2 ^ e ∧ x / 2 ^ e ≤ m + 1 / 2 ∧
      (x / 2 ^ e = m - 1 / 2 ∨ x / 2 ^ e = m + 1 / 2 → m % 2 = 0) ∧
      (IsNarrow f m e → (m : ℚ) - 1 / 4 ≤ x / 2 ^ e) := by
  have hunit : (0 : ℚ) < 2 ^ e := by positivity
  obtain ⟨hlow, hhigh⟩ := h
  rw [closed_neighbourhood] at hlow hhigh
  rw [high_neighbourhood] at hhigh
  rw [le_div_iff₀ hunit, div_le_iff₀ hunit, div_eq_iff hunit.ne', div_eq_iff hunit.ne',
    le_div_iff₀ hunit]
  have hhigh' : x ≤ (m + 1 / 2) * 2 ^ e := hhigh.elim le_of_lt fun h => h.2.le
  have heven : x = (m + 1 / 2) * 2 ^ e → m % 2 = 0 := fun heq =>
    hhigh.elim (fun h => absurd heq h.ne) (·.1)
  by_cases hn : IsNarrow f m e
  · rw [low_neighbourhood_narrow hm hn] at hlow
    have hlow' : (m - 1 / 4) * 2 ^ e ≤ x := hlow.elim le_of_lt fun h => h.2.le
    refine ⟨by linarith, hhigh', ?_, fun _ => hlow'⟩
    rintro (h | h)
    · linarith
    · exact heven h
  · rw [low_neighbourhood hm hn] at hlow
    refine ⟨hlow.elim le_of_lt fun h => h.2.le, hhigh', ?_, fun hnarrow => absurd hnarrow hn⟩
    rintro (h | h)
    · exact hlow.elim (fun hlt => absurd h hlt.ne') (·.1)
    · exact heven h

/-- What is close enough to a number lies around it. -/
theorem contains_of_close (hm : 0 < m) (hlow : ((m : ℚ) - 1 / 2) * 2 ^ e < x)
    (hhigh : x < (m + 1 / 2) * 2 ^ e) (hnarrow : IsNarrow f m e → ((m : ℚ) - 1 / 4) * 2 ^ e < x) :
    (neighbourhood f m e).Contains x := by
  refine ⟨.inl ?_, .inl ?_⟩
  · by_cases hn : IsNarrow f m e
    · rw [low_neighbourhood_narrow hm hn]
      exact hnarrow hn
    · rwa [low_neighbourhood hm hn]
  · rwa [high_neighbourhood]

theorem contains_self (hm : 0 < m) : (neighbourhood f m e).Contains (m * 2 ^ e) := by
  have hunit : (0 : ℚ) < 2 ^ e := by positivity
  exact contains_of_close hm (by linarith) (by linarith) fun _ => by linarith

end Decimal

-- ---------------------------------------------------------------------------
-- Rounding within a neighbourhood
-- ---------------------------------------------------------------------------

namespace BinaryFormat

variable {f : BinaryFormat} {q : Quotient} {m : Nat} {e : Int}

/-- A bound on a fraction in units of the last place bounds its exponent from above. -/
theorem binaryExponent_lt (hn : 0 < q.num) (hd : 0 < q.den) {k : Int}
    (h : q.value / 2 ^ e < 2 ^ k) : binaryExponent q < k + e := by
  have hunit : (0 : ℚ) < 2 ^ e := by positivity
  refine (zpow_lt_zpow_iff_right₀ (by norm_num : (1 : ℚ) < 2)).mp
    ((binaryExponent_spec hn hd).1.trans_lt ?_)
  rwa [zpow_add₀ (by norm_num), ← div_lt_iff₀ hunit]

theorem le_binaryExponent (hn : 0 < q.num) (hd : 0 < q.den) {k : Int}
    (h : 2 ^ k ≤ q.value / 2 ^ e) : k + e ≤ binaryExponent q := by
  have hunit : (0 : ℚ) < 2 ^ e := by positivity
  refine Int.lt_add_one_iff.mp ((zpow_lt_zpow_iff_right₀ (by norm_num : (1 : ℚ) < 2)).mp
    (lt_of_le_of_lt ?_ (binaryExponent_spec hn hd).2))
  rwa [zpow_add₀ (by norm_num), ← le_div_iff₀ hunit]

/-- A fraction in the binade of the number, or around one of the least exponent. -/
theorem roundMagnitude_within (hr : f.Represents m e) (hn : 0 < q.num) (hd : 0 < q.den)
    (hm : Quotient.Nearest (q.value / 2 ^ e) m)
    (hsame : e = f.leastExponent ∨ (2 : ℚ) ^ f.fractionBits ≤ q.value / 2 ^ e) :
    f.roundMagnitude q = f.bitsOf m e := by
  have hbelow : (m : ℚ) + 1 ≤ 2 * 2 ^ f.fractionBits := by exact_mod_cast hr.below
  have htop : binaryExponent q < f.fractionBits + 1 + e := by
    refine binaryExponent_lt hn hd (lt_of_le_of_lt hm.high ?_)
    rw [zpow_add_one₀ (by norm_num), zpow_natCast]
    linarith
  have he : max (binaryExponent q - f.fractionBits) f.leastExponent = e := by
    have hleast := hr.least
    rcases hsame with hl | hb
    · omega
    · rw [← zpow_natCast] at hb
      have hbottom := le_binaryExponent hn hd hb
      omega
  rw [roundMagnitude_of_nearest hn hd he hm]
  exact Nat.min_eq_left hr.finite.le

/-- A fraction just below the binade of which the number is the least: it is rounded there to the
number after the last, which is this one. -/
theorem roundMagnitude_below (hr : f.Represents (2 ^ f.fractionBits) e) (hn : 0 < q.num)
    (hd : 0 < q.den) (hne : e ≠ f.leastExponent)
    (hlow : (2 : ℚ) ^ f.fractionBits - 1 / 4 ≤ q.value / 2 ^ e)
    (hhigh : q.value / 2 ^ e < 2 ^ f.fractionBits) :
    f.roundMagnitude q = f.bitsOf (2 ^ f.fractionBits) e := by
  have hplace : (1 : ℚ) ≤ 2 ^ f.fractionBits := one_le_pow₀ (by norm_num)
  have hleast := hr.least
  have htop : binaryExponent q < f.fractionBits + e := by
    refine binaryExponent_lt hn hd ?_
    rwa [zpow_natCast]
  have hbottom : (f.fractionBits - 1 + e : Int) ≤ binaryExponent q := by
    refine le_binaryExponent hn hd ?_
    rw [zpow_sub_one₀ (by norm_num), zpow_natCast]
    linarith
  have he : max (binaryExponent q - f.fractionBits) f.leastExponent = e - 1 := by omega
  have hdouble : q.value / 2 ^ (e - 1) = 2 * (q.value / 2 ^ e) := by
    rw [zpow_sub_one₀ (by norm_num)]
    field_simp
  have hnearest : Quotient.Nearest (q.value / 2 ^ (e - 1)) (2 * 2 ^ f.fractionBits) := by
    rw [hdouble]
    refine ⟨?_, ?_, fun _ => Nat.mul_mod_right 2 _⟩
    · push_cast
      linarith
    · push_cast
      linarith
  have hbits : f.bitsOf (2 * 2 ^ f.fractionBits) (e - 1) = f.bitsOf (2 ^ f.fractionBits) e := by
    have hsteps : (e - f.leastExponent).toNat = (e - 1 - f.leastExponent).toNat + 1 := by omega
    rw [bitsOf, bitsOf, hsteps, Nat.add_one_mul (e - 1 - f.leastExponent).toNat]
    omega
  rw [roundMagnitude_of_nearest hn hd he hnearest, hbits]
  exact Nat.min_eq_left hr.finite.le

end BinaryFormat

namespace Decimal

variable {f : BinaryFormat} {q : Quotient} {m : Nat} {e : Int}

/-- What lies around a number is rounded to it. -/
theorem round_of_contains (hr : f.Represents m e) (hn : 0 < q.num) (hd : 0 < q.den)
    (h : (neighbourhood f m e).Contains q.value) : f.roundMagnitude q = f.bitsOf m e := by
  obtain ⟨hlow, hhigh, heven, hnarrow⟩ := contains_bounds hr.positive h
  by_cases hsame : e = f.leastExponent ∨ (2 : ℚ) ^ f.fractionBits ≤ q.value / 2 ^ e
  · exact BinaryFormat.roundMagnitude_within hr hn hd ⟨hlow, hhigh, heven⟩ hsame
  · -- Only the least number of a binade has fractions around it that lie below the binade.
    obtain ⟨hne, hlt⟩ := not_or.mp hsame
    have hlt := not_le.mp hlt
    obtain rfl : m = 2 ^ f.fractionBits := by
      refine Nat.le_antisymm (Nat.le_of_lt_succ ?_) (hr.normal hne)
      have hmlt : (m : ℚ) < (2 ^ f.fractionBits : Nat) + 1 := by
        push_cast
        linarith
      exact_mod_cast hmlt
    have hclose := hnarrow ⟨rfl, hne⟩
    push_cast at hclose
    exact BinaryFormat.roundMagnitude_below hr hn hd hne hclose hlt

end Decimal

end Treewire
