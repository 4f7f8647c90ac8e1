import Treewire.Proofs.Rounding

/-!
# The shortest decimals

The decimal that `Decimal.shortest` picks for a number lies among the rationals that round to that
number, since seventeen digits always do. So it is read as the number again, and so is every other
decimal of the same value.
-/

namespace Treewire

-- ---------------------------------------------------------------------------
-- Bits
-- ---------------------------------------------------------------------------

namespace BinaryFormat

variable {f : BinaryFormat} {bits field fraction m : Nat} {e : Int}

/-- The bits of a number, put together from its three fields. -/
theorem bits_fields (hb : bits < 2 * f.signBit) :
    bits = (if bits / f.signBit % 2 == 1 then f.signBit else 0) +
      (bits / 2 ^ f.fractionBits % 2 ^ f.exponentBits * 2 ^ f.fractionBits +
        bits % 2 ^ f.fractionBits) := by
  have hsign : f.signBit = 2 ^ f.fractionBits * 2 ^ f.exponentBits := Nat.pow_add 2 _ _
  have hone : bits / f.signBit < 2 :=
    (Nat.div_lt_iff_lt_mul (Nat.pow_pos Nat.two_pos)).mpr hb
  have hs : (if bits / f.signBit % 2 == 1 then f.signBit else 0) =
      f.signBit * (bits / f.signBit) := by
    rcases Nat.le_one_iff_eq_zero_or_eq_one.mp (Nat.le_of_lt_succ hone) with h | h
    · simp [h]
    · simp [h]
  have hdivision := Nat.div_add_mod bits (2 ^ f.fractionBits)
  have hdivision' := Nat.div_add_mod (bits / 2 ^ f.fractionBits) (2 ^ f.exponentBits)
  rw [hs, hsign, ← Nat.div_div_eq_div_mul]
  calc bits = 2 ^ f.fractionBits * (bits / 2 ^ f.fractionBits) + bits % 2 ^ f.fractionBits :=
        hdivision.symm
    _ = 2 ^ f.fractionBits * (2 ^ f.exponentBits *
          (bits / 2 ^ f.fractionBits / 2 ^ f.exponentBits) +
        bits / 2 ^ f.fractionBits % 2 ^ f.exponentBits) + bits % 2 ^ f.fractionBits := by
        rw [hdivision']
    _ = _ := by ring

theorem fields_lt_infinity (hfield : field < f.topField) (hfraction : fraction < 2 ^ f.fractionBits) :
    field * 2 ^ f.fractionBits + fraction < f.infinity := by
  calc field * 2 ^ f.fractionBits + fraction < field * 2 ^ f.fractionBits + 2 ^ f.fractionBits :=
        Nat.add_lt_add_left hfraction _
    _ = (field + 1) * 2 ^ f.fractionBits := (Nat.succ_mul _ _).symm
    _ ≤ f.infinity := Nat.mul_le_mul_right _ hfield

theorem bitsOf_least (fraction : Nat) : f.bitsOf fraction f.leastExponent = fraction := by
  rw [bitsOf, Int.sub_self, Int.toNat_zero, Nat.zero_mul, Nat.zero_add]

theorem bitsOf_normal (hfield : field ≠ 0) :
    f.bitsOf (2 ^ f.fractionBits + fraction) (f.leastExponent + ((field : Int) - 1)) =
      field * 2 ^ f.fractionBits + fraction := by
  obtain ⟨k, rfl⟩ := Nat.exists_eq_succ_of_ne_zero hfield
  have hsteps : (f.leastExponent + ((k.succ : Int) - 1) - f.leastExponent).toNat = k := by omega
  rw [bitsOf, hsteps, Nat.succ_mul, Nat.add_assoc]

theorem represents_least (htop : 0 < f.topField) (hm : fraction ≠ 0)
    (hfraction : fraction < 2 ^ f.fractionBits) : f.Represents fraction f.leastExponent where
  positive := Nat.pos_of_ne_zero hm
  below := by omega
  least := Int.le_refl _
  normal := fun h => absurd rfl h
  finite := by
    have hfinite := fields_lt_infinity htop hfraction
    rw [Nat.zero_mul, Nat.zero_add] at hfinite
    exact (bitsOf_least (f := f) fraction).trans_lt hfinite

theorem represents_normal (hzero : field ≠ 0) (htop : field < f.topField)
    (hfraction : fraction < 2 ^ f.fractionBits) :
    f.Represents (2 ^ f.fractionBits + fraction) (f.leastExponent + ((field : Int) - 1)) where
  positive := Nat.add_pos_left (Nat.pow_pos Nat.two_pos) _
  below := by omega
  least := by omega
  normal := fun _ => Nat.le_add_right _ _
  finite := (bitsOf_normal hzero).trans_lt (fields_lt_infinity htop hfraction)

/-- The bits of a finite number are those of its sign and its magnitude. -/
theorem unpack_finite (hb : bits < 2 * f.signBit) (h : f.unpack bits = .finite negative m e) :
    bits = (if negative then f.signBit else 0) + f.bitsOf m e ∧
      (m ≠ 0 → f.Represents m e) ∧ (m = 0 → e = f.leastExponent) := by
  have hplace : 0 < 2 ^ f.fractionBits := Nat.pow_pos Nat.two_pos
  have hall := bits_fields hb
  have hfraction := Nat.mod_lt bits hplace
  have hfield : bits / 2 ^ f.fractionBits % 2 ^ f.exponentBits ≤ f.topField :=
    Nat.le_sub_one_of_lt (Nat.mod_lt _ (Nat.pow_pos Nat.two_pos))
  simp only [unpack, Nat.pow_eq] at h
  generalize bits / 2 ^ f.fractionBits % 2 ^ f.exponentBits = field at h hall hfield
  generalize bits % 2 ^ f.fractionBits = fraction at h hall hfraction
  by_cases htop : field = f.topField
  · rw [if_pos htop] at h
    split at h <;> cases h
  rw [if_neg htop] at h
  have hlt : field < f.topField := Nat.lt_of_le_of_ne hfield htop
  by_cases hzero : field = 0
  · rw [if_pos hzero] at h
    cases h
    refine ⟨?_, fun hm => represents_least (by omega) hm hfraction, fun _ => rfl⟩
    rw [bitsOf_least]
    rwa [hzero, Nat.zero_mul, Nat.zero_add] at hall
  · rw [if_neg hzero] at h
    cases h
    refine ⟨?_, fun _ => represents_normal hzero hlt hfraction, by omega⟩
    rwa [bitsOf_normal hzero]

end BinaryFormat

-- ---------------------------------------------------------------------------
-- Decimals
-- ---------------------------------------------------------------------------

namespace Decimal

variable {q : Quotient} {m : Nat} {e : Int}

/-- The rational that a decimal stands for. -/
def value (d : Decimal) : ℚ := d.digits * 10 ^ d.exponent

theorem compareScaled_eq (a : Nat) (e : Int) (b : Nat) (k : Int) :
    compareScaled a e b k = compare ((a : ℚ) * 2 ^ e) (b * 10 ^ k) := by
  have hleft := Quotient.scaled_value Nat.two_pos a e
  have hright := Quotient.scaled_value (by decide : 0 < 10) b k
  have hl : (0 : ℚ) < (Quotient.scaled a 2 e).den := by
    exact_mod_cast Quotient.scaled_den_pos Nat.two_pos a e
  have hr : (0 : ℚ) < (Quotient.scaled b 10 k).den := by
    exact_mod_cast Quotient.scaled_den_pos (by decide : 0 < 10) b k
  push_cast at hleft hright
  unfold compareScaled
  dsimp only
  rw [← hleft, ← hright]
  unfold Quotient.value
  simp only [compare, compareOfLessAndEq, div_lt_div_iff₀ hl hr, div_eq_div_iff hl.ne' hr.ne']
  norm_cast

theorem holds_iff (hood : Neighbourhood) (d : Decimal) :
    hood.holds d.digits d.exponent = true ↔ hood.Contains d.value := by
  have hiff : hood.Contains d.value ↔
      ((hood.low : ℚ) * 2 ^ hood.exponent < d.value ∨
        hood.closed ∧ hood.low * 2 ^ hood.exponent = d.value) ∧
      (d.value < hood.high * 2 ^ hood.exponent ∨
        hood.closed ∧ d.value = hood.high * 2 ^ hood.exponent) :=
    ⟨fun h => ⟨h.low, h.high⟩, fun h => ⟨h.1, h.2⟩⟩
  have hvalue : (d.digits : ℚ) * 10 ^ d.exponent = d.value := rfl
  rw [hiff, Neighbourhood.holds]
  simp only [compareScaled_eq, hvalue, Bool.and_eq_true, Bool.or_eq_true, beq_iff_eq,
    compare_lt_iff_lt, compare_gt_iff_gt, compare_eq_iff_eq]
  rw [eq_comm (a := d.value) (b := (hood.high : ℚ) * 2 ^ hood.exponent)]

theorem inUnits_den_pos (hd : 0 < q.den) (k : Int) : 0 < (inUnits q k).den := by
  unfold inUnits
  split
  · exact Nat.mul_pos hd (Nat.pow_pos (by decide))
  · exact hd

theorem inUnits_value (q : Quotient) (k : Int) : (inUnits q k).value = q.value / 10 ^ k := by
  unfold inUnits
  by_cases h : 0 ≤ k
  · obtain ⟨n, rfl⟩ := Int.eq_ofNat_of_zero_le h
    rw [if_pos h]
    simp [Quotient.value, div_div]
  · obtain ⟨n, hn⟩ := Int.eq_ofNat_of_zero_le (Int.le_of_lt (Int.neg_pos.mpr (Int.not_le.mp h)))
    obtain rfl : k = -(n : Int) := by omega
    rw [if_neg h]
    simp [Quotient.value, mul_div_right_comm]

theorem pow_width_le (h : 0 < n) : 10 ^ (decimalWidth n - 1) ≤ n := by
  rw [decimalWidth, if_neg h.ne']
  rcases Nat.eq_zero_or_pos ((Nat.toDigits 10 n).length - 1) with hz | hp
  · rw [hz]
    exact h
  · refine not_lt.mp fun hlt => ?_
    have hle := (Nat.length_toDigits_le_iff (by decide) hp).mpr hlt
    omega

theorem lt_pow_width (n : Nat) : n < 10 ^ (Nat.toDigits 10 n).length :=
  (Nat.length_toDigits_le_iff (by decide) Nat.length_toDigits_pos).mp (Nat.le_refl _)

/-- A fraction has at least as many digits before the point as its magnitude says. -/
theorem magnitude_le (hn : 0 < q.num) (hd : 0 < q.den) :
    (10 : ℚ) ^ (magnitude q - 1) ≤ q.value := by
  have hden : (0 : ℚ) < q.den := by exact_mod_cast hd
  have hnum : (0 : ℚ) < q.num := by exact_mod_cast hn
  unfold magnitude Quotient.value
  by_cases h : q.den ≤ q.num
  · have hwhole : 0 < q.num / q.den := Nat.div_pos h hd
    have hwidth : ((decimalWidth (q.num / q.den) : Int) - 1) =
        ((decimalWidth (q.num / q.den) - 1 : Nat) : Int) := by
      have hpos : 0 < decimalWidth (q.num / q.den) := by
        rw [decimalWidth, if_neg hwhole.ne']
        exact Nat.length_toDigits_pos
      omega
    rw [if_pos h, hwidth, zpow_natCast, le_div_iff₀ hden]
    calc (10 : ℚ) ^ (decimalWidth (q.num / q.den) - 1) * q.den
        ≤ (q.num / q.den : Nat) * q.den := by
          gcongr
          exact_mod_cast pow_width_le hwhole
      _ ≤ q.num := by exact_mod_cast Nat.div_mul_le_self q.num q.den
  · rw [if_neg h]
    generalize hc : (q.den + q.num - 1) / q.num = c
    have hbound : q.den ≤ c * q.num := by
      have hmod := Nat.div_add_mod (q.den + q.num - 1) q.num
      have hlt := Nat.mod_lt (q.den + q.num - 1) hn
      rw [hc, Nat.mul_comm] at hmod
      omega
    have htwo : 2 ≤ c := by
      by_contra hlt
      have hle : c * q.num ≤ 1 * q.num := Nat.mul_le_mul_right _ (by omega)
      omega
    have hwidth : c ≤ 10 ^ decimalWidth (c - 1) := by
      have hlt := lt_pow_width (c - 1)
      rw [decimalWidth, if_neg (by omega)]
      omega
    have hexponent : 1 - (decimalWidth (c - 1) : Int) - 1 = -(decimalWidth (c - 1) : Int) := by
      omega
    have hpow : (0 : ℚ) < 10 ^ decimalWidth (c - 1) := by positivity
    rw [hexponent, zpow_neg, zpow_natCast, le_div_iff₀ hden, inv_mul_le_iff₀ hpow]
    calc (q.den : ℚ) ≤ c * q.num := by exact_mod_cast hbound
      _ ≤ 10 ^ decimalWidth (c - 1) * q.num := by
        gcongr
        exact_mod_cast hwidth

theorem trim_value (d : Decimal) : d.trim.value = d.value := by
  have all (fuel digits : Nat) (exponent : Int) :
      (trim.go fuel digits exponent).value = (digits : ℚ) * 10 ^ exponent := by
    induction fuel generalizing digits exponent with
    | zero => rfl
    | succ fuel ih =>
      rw [trim.go]
      split
      · rename_i h
        have htens : digits / 10 * 10 = digits := by omega
        have hcast : ((digits / 10 : Nat) : ℚ) * 10 = digits := by exact_mod_cast htens
        rw [ih, zpow_add_one₀ (by norm_num), ← hcast]
        ring
      · rfl
  exact all _ _ _

-- ---------------------------------------------------------------------------
-- Seventeen digits
-- ---------------------------------------------------------------------------

/-- The digits that are kept of a number are half a step off at most. -/
theorem round_inUnits_close (hd : 0 < q.den) (k : Int) :
    q.value - 10 ^ k / 2 ≤ value ⟨(inUnits q k).round, k⟩ ∧
      value ⟨(inUnits q k).round, k⟩ ≤ q.value + 10 ^ k / 2 := by
  have hstep : (0 : ℚ) < 10 ^ k := by positivity
  obtain ⟨hlow, hhigh, -⟩ := Quotient.nearest_round (inUnits_den_pos hd k)
  rw [inUnits_value] at hlow hhigh
  rw [le_div_iff₀ hstep] at hlow
  rw [div_le_iff₀ hstep] at hhigh
  unfold value
  exact ⟨by linarith, by linarith⟩

/-- A step of the last of seventeen digits is less than one of the last bit, and less than half of
that where the number is the least of its binade. -/
theorem last_digit_lt {k : Int} (hr : BinaryFormat.double.Represents m e)
    (h : (10 : ℚ) ^ k * 10 ^ 16 ≤ m * 2 ^ e) :
    (10 : ℚ) ^ k < 2 ^ e ∧ (IsNarrow .double m e → 2 * (10 : ℚ) ^ k < 2 ^ e) := by
  have hunit : (0 : ℚ) < 2 ^ e := by positivity
  constructor
  · have hbelow : (m : ℚ) ≤ 2 * 2 ^ 52 := by exact_mod_cast hr.below.le
    have hmul : (m : ℚ) * 2 ^ e ≤ 2 * 2 ^ 52 * 2 ^ e := by gcongr
    norm_num at h hmul
    linarith
  · intro hn
    have hm : (m : ℚ) = 2 ^ 52 := by exact_mod_cast hn.1
    rw [hm] at h
    norm_num at h
    linarith

/-- With seventeen digits there is a decimal close enough to every number. -/
theorem seventeen_contains (hr : BinaryFormat.double.Represents m e) :
    (neighbourhood .double m e).Contains (value
      ⟨(inUnits (.scaled m 2 e) (magnitude (.scaled m 2 e) - (17 : Nat))).round,
        magnitude (.scaled m 2 e) - (17 : Nat)⟩) := by
  have hvalue : (Quotient.scaled m 2 e).value = m * 2 ^ e := by
    rw [Quotient.scaled_value Nat.two_pos]
    norm_cast
  have hd := Quotient.scaled_den_pos Nat.two_pos m e
  have hmagnitude := magnitude_le (Quotient.scaled_num_pos Nat.two_pos hr.positive e) hd
  generalize Quotient.scaled m 2 e = q at hvalue hd hmagnitude
  generalize hk : magnitude q - (17 : Nat) = k
  have hshift : (10 : ℚ) ^ (magnitude q - 1) = 10 ^ k * 10 ^ 16 := by
    rw [← zpow_natCast, ← zpow_add₀ (by norm_num), ← hk]
    congr 1
    push_cast
    omega
  rw [hshift, hvalue] at hmagnitude
  obtain ⟨hlow, hhigh⟩ := round_inUnits_close hd k
  obtain ⟨hfine, hfiner⟩ := last_digit_lt hr hmagnitude
  rw [hvalue] at hlow hhigh
  refine contains_of_close hr.positive (by linarith) (by linarith) fun hn => ?_
  have hhalf := hfiner hn
  linarith

theorem withDigits?_holds {hood : Neighbourhood} (h : withDigits? hood q n = some d) :
    hood.holds d.digits d.exponent = true := by
  unfold withDigits? at h
  dsimp only at h
  split at h
  · cases h
    assumption
  split at h
  · cases h
    assumption
  split at h
  · cases h
    assumption
  · cases h

theorem withDigits?_nearest {hood : Neighbourhood} {n : Nat}
    (h : hood.holds (inUnits q (magnitude q - n)).round (magnitude q - n) = true) :
    withDigits? hood q n = some ⟨(inUnits q (magnitude q - n)).round, magnitude q - n⟩ := if_pos h

/-- The decimal that is picked rounds to the number. -/
theorem shortest_contains (hr : BinaryFormat.double.Represents m e) :
    (neighbourhood .double m e).Contains (shortest .double m e).value := by
  unfold shortest
  dsimp only
  split
  · rename_i d hfound
    obtain ⟨n, -, hd⟩ := List.exists_of_findSome?_eq_some hfound
    rw [trim_value, ← holds_iff]
    exact withDigits?_holds hd
  · rename_i hnone
    -- The search cannot fail, since seventeen digits are enough.
    have hlast : withDigits? (neighbourhood .double m e) (.scaled m 2 e) 17 = none :=
      List.findSome?_eq_none_iff.mp hnone 16 (by decide)
    have hholds := (holds_iff _ _).mpr (seventeen_contains hr)
    have hfound := withDigits?_nearest hholds
    exact (Option.some_ne_none _ (hfound.symm.trans hlast)).elim

/-- No decimal around a number is zero. -/
theorem digits_ne_zero {f : BinaryFormat} {d : Decimal} (hm : 0 < m)
    (h : (neighbourhood f m e).Contains d.value) : d.digits ≠ 0 := by
  intro hz
  have hlow := (contains_bounds hm h).1
  have hone : (1 : ℚ) ≤ m := by exact_mod_cast hm
  rw [value, hz, Nat.cast_zero, zero_mul, zero_div] at hlow
  linarith

end Decimal

-- ---------------------------------------------------------------------------
-- Reading decimals
-- ---------------------------------------------------------------------------

namespace Binary64

variable {x : Binary64} {m digits : Nat} {e exponent : Int}

/-- The bits of a number, put together from its sign and its magnitude. -/
theorem eq_of_value (hx : x.value = .finite negative m e) :
    ofNatBits ((if negative then BinaryFormat.double.signBit else 0) +
      BinaryFormat.double.bitsOf m e) = x := by
  obtain ⟨hbits, -⟩ := BinaryFormat.unpack_finite x.bits.toNat_lt hx
  rw [← hbits, ofNatBits, UInt64.ofNat_toNat]

theorem represents_of_value (hx : x.value = .finite negative m e) (hm : m ≠ 0) :
    BinaryFormat.double.Represents m e :=
  (BinaryFormat.unpack_finite x.bits.toNat_lt hx).2.1 hm

/-- Zero is read with its sign. -/
theorem ofDecimal_zero (hx : x.value = .finite negative 0 e) :
    ofDecimal negative 0 exponent = x := by
  have he : BinaryFormat.double.bitsOf 0 e = 0 := by
    rw [(BinaryFormat.unpack_finite x.bits.toNat_lt hx).2.2 rfl, BinaryFormat.bitsOf, Int.sub_self]
    rfl
  rw [← eq_of_value hx, he]
  rfl

theorem two_pow_lt_ten_pow (n : Nat) (hn : n ≠ 0) : (2 : ℚ) ^ (3 * n) < 10 ^ n := by
  rw [pow_mul]
  exact pow_lt_pow_left₀ (by norm_num) (by norm_num) hn

/-- What lies around a number is neither too great nor too small to be read. -/
theorem bounds_of_contains {y : ℚ} (hr : BinaryFormat.double.Represents m e)
    (h : (Decimal.neighbourhood .double m e).Contains y) :
    (10 : ℚ) ^ (-401 : Int) < y ∧ y < 10 ^ (401 : Int) := by
  have hone : (1 : ℚ) < 2 := by norm_num
  have hten : (1 : ℚ) < 10 := by norm_num
  obtain ⟨hlow, hhigh, -, -⟩ := Decimal.contains_bounds hr.positive h
  have hunit : (0 : ℚ) < 2 ^ e := by positivity
  rw [le_div_iff₀ hunit] at hlow
  rw [div_le_iff₀ hunit] at hhigh
  have hpositive : (1 : ℚ) ≤ m := by exact_mod_cast hr.positive
  have hbelow : (m : ℚ) + 1 ≤ 2 ^ 53 := by exact_mod_cast hr.below
  have hleast : (-1074 : Int) ≤ e := hr.least
  have hmost : e ≤ 972 := by
    have hfinite : (e - -1074).toNat * 2 ^ 52 + m < 2047 * 2 ^ 52 := hr.finite
    omega
  constructor
  · calc (10 : ℚ) ^ (-401 : Int) < 10 ^ (-((359 : Nat) : Int)) :=
          (zpow_lt_zpow_iff_right₀ hten).mpr (by decide)
      _ < 2 ^ (-((3 * 359 : Nat) : Int)) := by
          rw [zpow_neg, zpow_neg, zpow_natCast, zpow_natCast]
          exact (inv_lt_inv₀ (by positivity) (by positivity)).mpr
            (two_pow_lt_ten_pow 359 (by decide))
      _ ≤ 2 ^ (e - 1) := (zpow_le_zpow_iff_right₀ hone).mpr (by push_cast; omega)
      _ = 1 / 2 * 2 ^ e := by
          rw [zpow_sub_one₀ (by norm_num)]
          ring
      _ ≤ ((m : ℚ) - 1 / 2) * 2 ^ e := by
          gcongr
          linarith
      _ ≤ y := hlow
  · calc y ≤ ((m : ℚ) + 1 / 2) * 2 ^ e := hhigh
      _ ≤ 2 ^ 53 * 2 ^ e := by
          gcongr
          linarith
      _ = 2 ^ (53 + e) := by
          rw [zpow_add₀ (by norm_num)]
          norm_cast
      _ ≤ 2 ^ ((3 * 342 : Nat) : Int) := (zpow_le_zpow_iff_right₀ hone).mpr (by push_cast; omega)
      _ < 10 ^ ((342 : Nat) : Int) := by
          rw [zpow_natCast]
          exact two_pow_lt_ten_pow 342 (by decide)
      _ < 10 ^ (401 : Int) := (zpow_lt_zpow_iff_right₀ hten).mpr (by decide)

/-- A decimal that is not too small has its first digit above the floor. -/
theorem width_of_floor (h : (10 : ℚ) ^ (-401 : Int) < Decimal.value ⟨digits, exponent⟩) :
    ¬exponent + ((Nat.toDigits 10 digits).length : Int) < -400 := by
  intro hlt
  have hpow : (digits : ℚ) < 10 ^ (Nat.toDigits 10 digits).length := by
    exact_mod_cast Decimal.lt_pow_width digits
  have hupper : Decimal.value ⟨digits, exponent⟩ < 10 ^ (-401 : Int) := by
    calc (digits : ℚ) * 10 ^ exponent
        < 10 ^ (Nat.toDigits 10 digits).length * 10 ^ exponent := by gcongr
      _ = 10 ^ (exponent + ((Nat.toDigits 10 digits).length : Int)) := by
          rw [Int.add_comm, zpow_add₀ (by norm_num), zpow_natCast]
      _ ≤ 10 ^ (-401 : Int) := (zpow_le_zpow_iff_right₀ (by norm_num)).mpr (by omega)
  exact absurd h hupper.not_gt

/-- A decimal that is not too great has its last digit below the ceiling. -/
theorem exponent_of_ceiling (hd : digits ≠ 0)
    (h : Decimal.value ⟨digits, exponent⟩ < 10 ^ (401 : Int)) : ¬exponent > 400 := by
  intro hgt
  have hdigit : (1 : ℚ) ≤ digits := by exact_mod_cast Nat.pos_of_ne_zero hd
  have hlower : (10 : ℚ) ^ (401 : Int) ≤ Decimal.value ⟨digits, exponent⟩ := by
    calc (10 : ℚ) ^ (401 : Int) ≤ 10 ^ exponent :=
          (zpow_le_zpow_iff_right₀ (by norm_num)).mpr (by omega)
      _ ≤ digits * 10 ^ exponent := le_mul_of_one_le_left (by positivity) hdigit
  exact absurd h hlower.not_gt

/-- A decimal that lies around a number is read as that number. -/
theorem ofDecimal_of_contains (hx : x.value = .finite negative m e) (hm : m ≠ 0)
    (h : (Decimal.neighbourhood .double m e).Contains (Decimal.value ⟨digits, exponent⟩)) :
    ofDecimal negative digits exponent = x := by
  have hr := represents_of_value hx hm
  have hdigits : digits ≠ 0 := Decimal.digits_ne_zero hr.positive h
  obtain ⟨hfloor, hceiling⟩ := bounds_of_contains hr h
  have hscaled : (Quotient.scaled digits 10 exponent).value = Decimal.value ⟨digits, exponent⟩ := by
    rw [Quotient.scaled_value (by decide), Decimal.value]
    norm_cast
  have hd := Quotient.scaled_den_pos (by decide : 0 < 10) digits exponent
  have hn := Quotient.scaled_num_pos (by decide : 0 < 10) (Nat.pos_of_ne_zero hdigits) exponent
  rw [ofDecimal, BinaryFormat.ofDecimal, if_neg (by simp [hdigits, width_of_floor hfloor]),
    if_neg (exponent_of_ceiling hdigits hceiling), BinaryFormat.round,
    Decimal.round_of_contains hr hn hd (hscaled ▸ h)]
  exact eq_of_value hx

end Binary64

end Treewire
