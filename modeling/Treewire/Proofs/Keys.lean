import Treewire.Proofs.Figures
import Treewire.Proofs.Normal
import Treewire.Proofs.Writing

/-!
# Numbers as keys

A number that is written as a key names the property that is called after it: the name is the number
as scripts print it. As the key of a method it is converted to that name, but as the key of a
property an integer is kept as an index. `emitted_property_iff` says for which numbers the index
stands for the name: for those whose digits are all printed, and that fit into an index.
-/

namespace Treewire

-- ---------------------------------------------------------------------------
-- Integers among the numbers
-- ---------------------------------------------------------------------------

variable {x : Binary64} {m n : Nat} {e : Int} {d : Decimal}

/-- The integer that a number equals has its sign and its magnitude. -/
theorem Binary64.of_toInt? {i : Int} (hx : x.value = .finite negative m e)
    (h : x.toInt? = some i) :
    (m : ℚ) * 2 ^ e = i.natAbs ∧ i = if negative then -(i.natAbs : Int) else i.natAbs := by
  have hd := Quotient.scaled_den_pos Nat.two_pos m e
  have hvalue := Quotient.scaled_value Nat.two_pos m e
  unfold toInt? at h
  rw [hx] at h
  dsimp only at h
  generalize Quotient.scaled m 2 e = q at h hd hvalue
  split at h
  · rename_i hrest
    obtain ⟨w, hw⟩ := Nat.dvd_of_mod_eq_zero hrest
    have hquotient : (q.num : Int) / q.den = w := by
      rw [hw, Nat.cast_mul]
      exact Int.mul_ediv_cancel_left _ (by omega)
    have hwhole : q.value = w := by
      have hden : (q.den : ℚ) ≠ 0 := by exact_mod_cast hd.ne'
      rw [Quotient.value, hw, Nat.cast_mul, mul_div_cancel_left₀ _ hden]
    rw [hquotient] at h
    cases h
    have habs : (if negative = true then -(w : Int) else w).natAbs = w := by
      split <;> omega
    push_cast at hvalue
    rw [habs, ← hvalue, hwhole]
    exact ⟨rfl, rfl⟩
  · cases h

namespace Decimal

-- ---------------------------------------------------------------------------
-- Trimmed decimals
-- ---------------------------------------------------------------------------

/-- Whether the last digit says anything. -/
def IsTrimmed (d : Decimal) : Prop := d.digits ≠ 0 → d.digits % 10 ≠ 0

theorem isTrimmed_trim (d : Decimal) : d.trim.IsTrimmed := by
  -- There are as many rounds as digits, and each takes one.
  have all (fuel digits : Nat) (exponent : Int) (h : digits < 10 ^ fuel) :
      (trim.go fuel digits exponent).IsTrimmed := by
    induction fuel generalizing digits exponent with
    | zero =>
      intro hne
      rw [Nat.pow_zero] at h
      exact absurd (Nat.lt_one_iff.mp h) hne
    | succ fuel ih =>
      rw [trim.go]
      split
      · refine ih _ _ ?_
        rw [Nat.pow_succ] at h
        omega
      · rename_i hlast
        intro hne hten
        exact hlast ⟨hten, hne⟩
  refine all _ _ _ ?_
  rw [decimalWidth]
  split
  · simp_all
  · exact lt_pow_width _

theorem isTrimmed_shortest (f : BinaryFormat) (m : Nat) (e : Int) :
    (shortest f m e).IsTrimmed := by
  unfold shortest
  dsimp only
  split
  · exact isTrimmed_trim _
  · exact isTrimmed_trim _

/-- A trimmed decimal that is an integer has no digits after the point. -/
theorem IsTrimmed.exponent_nonneg (ht : d.IsTrimmed) (hd : d.digits ≠ 0) (h : d.value = n) :
    0 ≤ d.exponent := by
  by_contra hneg
  obtain ⟨k, hk⟩ : ∃ k : Nat, d.exponent = -((k + 1 : Nat) : Int) :=
    ⟨(-d.exponent - 1).toNat, by omega⟩
  rw [value, hk, zpow_neg, zpow_natCast, ← div_eq_mul_inv, div_eq_iff (by positivity)] at h
  have hnat : d.digits = n * 10 ^ (k + 1) := by exact_mod_cast h
  refine ht hd ?_
  rw [hnat, Nat.pow_succ, ← Nat.mul_assoc, Nat.mul_mod_left]

-- ---------------------------------------------------------------------------
-- Small integers
-- ---------------------------------------------------------------------------

/-- Around an integer that is given to its last place there is no other. -/
theorem eq_of_contains {f : BinaryFormat} {k : Nat} (hm : 0 < m) (he : e ≤ 0)
    (hn : (m : ℚ) * 2 ^ e = n) (h : (neighbourhood f m e).Contains k) : k = n := by
  obtain ⟨hlow, hhigh, -⟩ := contains_bounds hm h
  have hunit : (0 : ℚ) < 2 ^ e := by positivity
  have hone : (2 : ℚ) ^ e ≤ 1 := zpow_le_one_of_nonpos₀ (by norm_num) he
  rw [le_div_iff₀ hunit] at hlow
  rw [div_le_iff₀ hunit] at hhigh
  have hle : (k : ℚ) < n + 1 := by linarith
  have hge : (n : ℚ) < k + 1 := by linarith
  have hle : k < n + 1 := by exact_mod_cast hle
  have hge : n < k + 1 := by exact_mod_cast hge
  omega

theorem withDigits?_exponent {q : Quotient} {hood : Neighbourhood} {w : Nat}
    (h : withDigits? hood q w = some d) : d.exponent = magnitude q - w := by
  unfold withDigits? at h
  dsimp only at h
  split at h
  · cases h
    rfl
  split at h
  · cases h
    rfl
  split at h
  · cases h
    rfl
  · cases h

/-- Integers below `2 ^ 53` are given to their last place. -/
theorem exponent_nonpos (hr : BinaryFormat.double.Represents m e) (hn : (m : ℚ) * 2 ^ e = n)
    (hs : n < 2 ^ 53) : e ≤ 0 := by
  have hleast : BinaryFormat.double.leastExponent = -1074 := rfl
  by_contra hpos
  have hnormal : (2 : ℚ) ^ 52 ≤ m := by exact_mod_cast hr.normal (by omega)
  have htwo : (2 : ℚ) ≤ 2 ^ e := by
    calc (2 : ℚ) = 2 ^ (1 : Int) := (zpow_one _).symm
      _ ≤ 2 ^ e := (zpow_le_zpow_iff_right₀ (by norm_num)).mpr (by omega)
  have hge : (2 : ℚ) ^ 52 * 2 ≤ m * 2 ^ e := by gcongr
  have hlt : (n : ℚ) < 2 ^ 53 := by exact_mod_cast hs
  linarith

section

variable {f : BinaryFormat} {q : Quotient} {w : Nat}

theorem magnitude_of_integer (hd : 0 < q.den) (hq : q.value = n) (hn : 0 < n) :
    magnitude q = decimalWidth n := by
  have hden : (q.den : ℚ) ≠ 0 := by exact_mod_cast hd.ne'
  have hwhole : q.num = n * q.den := by
    rw [Quotient.value, div_eq_iff hden] at hq
    exact_mod_cast hq
  rw [magnitude, if_pos (by rw [hwhole]; exact Nat.le_mul_of_pos_left _ hn), hwhole,
    Nat.mul_div_cancel _ hd]

/-- All digits of an integer give the integer. -/
theorem withDigits?_width (hm : 0 < m) (hd : 0 < q.den) (hq : q.value = n) (hn : 0 < n)
    (hv : (m : ℚ) * 2 ^ e = n) :
    withDigits? (neighbourhood f m e) q (decimalWidth n) = some ⟨n, 0⟩ := by
  have hzero : magnitude q - (decimalWidth n : Int) = 0 := by
    rw [magnitude_of_integer hd hq hn, Int.sub_self]
  have hround : (inUnits q 0).round = n := by
    refine Quotient.round_of_nearest (inUnits_den_pos hd 0) ?_
    rw [inUnits_value, hq, zpow_zero, div_one]
    exact ⟨by linarith, by linarith, by rintro (h | h) <;> linarith⟩
  have hself : (neighbourhood f m e).holds n 0 = true := by
    refine (holds_iff _ ⟨n, 0⟩).mpr ?_
    rw [value, zpow_zero, mul_one, ← hv]
    exact contains_self hm
  have hnearest (hood : Neighbourhood) := @withDigits?_nearest q hood (decimalWidth n)
  rw [hzero, hround] at hnearest
  exact hnearest _ hself

/-- With fewer digits than all there are integers only, and no other one is as close. -/
theorem withDigits?_value (hm : 0 < m) (he : e ≤ 0) (hd : 0 < q.den) (hq : q.value = n)
    (hn : 0 < n) (hv : (m : ℚ) * 2 ^ e = n) (hw : w ≤ decimalWidth n)
    (h : withDigits? (neighbourhood f m e) q w = some d) : d.value = n := by
  obtain ⟨k, hk⟩ := Int.eq_ofNat_of_zero_le (a := d.exponent) (by
    rw [withDigits?_exponent h, magnitude_of_integer hd hq hn]
    omega)
  have hinteger : d.value = (d.digits * 10 ^ k : Nat) := by
    rw [value, hk]
    push_cast
    rfl
  have hcontains := (holds_iff _ d).mp (withDigits?_holds h)
  rw [hinteger] at hcontains
  rw [hinteger, eq_of_contains hm he hv hcontains]

end

/-- An integer below `2 ^ 53` is its own shortest decimal. -/
theorem shortest_value (hr : BinaryFormat.double.Represents m e) (hn : (m : ℚ) * 2 ^ e = n)
    (hs : n < 2 ^ 53) : (shortest .double m e).value = n := by
  have hm : (0 : ℚ) < m := by exact_mod_cast hr.positive
  have hpos : 0 < n := by
    have : (0 : ℚ) < n := hn ▸ by positivity
    exact_mod_cast this
  have hd := Quotient.scaled_den_pos Nat.two_pos m e
  have hvalue : (Quotient.scaled m 2 e).value = n := by
    rw [← hn, Quotient.scaled_value Nat.two_pos]
    norm_cast
  have hfull := withDigits?_width (f := .double) hr.positive hd hvalue hpos hn
  have hlength : (Nat.toDigits 10 n).length ≤ 16 :=
    (Nat.length_toDigits_le_iff (by decide) (by decide)).mpr (by omega)
  obtain ⟨w, hw⟩ : ∃ w, decimalWidth n = w + 1 := by
    rw [decimalWidth, if_neg hpos.ne']
    exact Nat.exists_eq_add_one.mpr Nat.length_toDigits_pos
  have hshort : w ∈ List.range 17 := by
    rw [decimalWidth, if_neg hpos.ne'] at hw
    exact List.mem_range.mpr (by omega)
  rw [hw] at hfull
  unfold shortest
  dsimp only
  split
  · rename_i found hfound
    obtain ⟨before, i, after, hrange, hi, hbefore⟩ := List.findSome?_eq_some_iff.mp hfound
    -- The search ends with all digits, if not before.
    have hiw : i ≤ w := by
      have hsorted := hrange ▸ List.pairwise_lt_range (n := 17)
      rcases List.mem_append.mp (hrange ▸ hshort) with hb | ha
      · rw [hbefore w hb] at hfull
        cases hfull
      · rcases List.mem_cons.mp ha with rfl | hlater
        · exact Nat.le_refl _
        · have hpairs := (List.pairwise_append.mp hsorted).2.1
          exact Nat.le_of_lt (List.rel_of_pairwise_cons hpairs hlater)
    rw [trim_value]
    exact withDigits?_value hr.positive (exponent_nonpos hr hn hs) hd hvalue hpos hn (by omega) hi
  · rename_i hnone
    rw [List.findSome?_eq_none_iff.mp hnone w hshort] at hfull
    cases hfull

end Decimal

-- ---------------------------------------------------------------------------
-- Printed integers
-- ---------------------------------------------------------------------------

/-- Zeros behind the digits of a number. -/
theorem toDigits_mul_pow (hm : m ≠ 0) (k : Nat) :
    Nat.toDigits 10 (m * 10 ^ k) = Nat.toDigits 10 m ++ List.replicate k '0' := by
  induction k with
  | zero => simp
  | succ k ih =>
    have hpos : 0 < m * 10 ^ k := Nat.mul_pos (Nat.pos_of_ne_zero hm) (Nat.pow_pos (by decide))
    have hlast := Nat.toDigits_append_toDigits (b := 10) (d := 0) (by decide) hpos (by decide)
    rw [List.replicate_succ', ← List.append_assoc, ← ih, Nat.pow_succ, ← Nat.mul_assoc,
      Nat.mul_comm _ 10]
    exact hlast.symm

theorem notMem_toDigits {c : Char} (hc : c.isDigit = false) : c ∉ Nat.toDigits 10 n := fun h => by
  rw [Json.digits_toDigits n c h] at hc
  cases hc

/-- A decimal that is printed with digits only is the integer that has these digits. -/
theorem DecimalLayout.value_of_digits
    (h : (script.magnitude d).toList = Nat.toDigits 10 n) : d.value = n := by
  unfold magnitude at h
  dsimp only at h
  split at h
  · split at h
    · -- All digits stand before the point.
      rename_i hinteger
      obtain ⟨k, hk⟩ := Int.eq_ofNat_of_zero_le hinteger
      have hpointed : script.pointed = false := rfl
      rw [hk, hpointed, String.toList_append, String.toList_ofList] at h
      have hvalue := congrArg Json.digitsValue h
      simp only [Bool.false_eq_true, if_false, String.toList_empty, List.append_nil,
        Int.toNat_natCast, Json.digitsValue_append_zeros, Json.digitsValue_toDigits] at hvalue
      rw [Decimal.value, hk, ← hvalue]
      simp
    · split at h
      · refine (notMem_toDigits (n := n) (c := '.') rfl ?_).elim
        rw [← h, String.toList_ofList]
        exact List.mem_append_right _ (List.mem_cons_self ..)
      · refine (notMem_toDigits (n := n) (c := '.') rfl ?_).elim
        rw [← h, String.toList_ofList]
        simp
  · refine (notMem_toDigits (n := n) (c := 'e') rfl ?_).elim
    rw [← h, String.toList_ofList]
    exact List.mem_append_right _ (List.mem_cons_self ..)

/-- A trimmed decimal that equals an integer is printed as the digits of it, if scripts print such
an integer in full. -/
theorem DecimalLayout.digits_of_value (ht : d.IsTrimmed) (hd : d.digits ≠ 0) (hn : n < 10 ^ 21)
    (h : d.value = n) : (script.magnitude d).toList = Nat.toDigits 10 n := by
  have hinteger := ht.exponent_nonneg hd h
  obtain ⟨k, hk⟩ := Int.eq_ofNat_of_zero_le hinteger
  have hnat : n = d.digits * 10 ^ k := by
    rw [Decimal.value, hk, zpow_natCast] at h
    exact_mod_cast h.symm
  have hall := toDigits_mul_pow hd k
  have hwidth : (Nat.toDigits 10 d.digits).length + k ≤ 21 := by
    rw [← List.length_replicate (n := k) (a := '0'), ← List.length_append, ← hall, ← hnat]
    exact (Nat.length_toDigits_le_iff (by decide) (by decide)).mpr hn
  have hpos : 0 < (Nat.toDigits 10 d.digits).length := Nat.length_toDigits_pos
  have hleast : script.least = -6 := rfl
  have hbound : script.bound = 21 := rfl
  have hpointed : script.pointed = false := rfl
  unfold magnitude
  dsimp only
  rw [if_pos (by rw [hleast, hbound, hk]; omega), if_pos hinteger, hnat, hall, hk, hpointed]
  simp

/-- Among the integers that scripts print in full, a decimal is printed as the digits of the one
that it equals. -/
theorem DecimalLayout.magnitude_script_iff (ht : d.IsTrimmed) (hd : d.digits ≠ 0)
    (hn : n < 10 ^ 21) :
    (script.magnitude d).toList = Nat.toDigits 10 n ↔ d.value = n :=
  ⟨value_of_digits, digits_of_value ht hd hn⟩

namespace Script

-- ---------------------------------------------------------------------------
-- Properties that keys name
-- ---------------------------------------------------------------------------

/-- An integer that an index keeps as it is printed: it is in range, and its shortest decimal is the
integer itself. -/
def IsIndex (x : Binary64) (i : Int) : Prop :=
  IsInt64 i ∧ ∀ {negative m e}, x.value = .finite negative m e → m ≠ 0 →
    (Decimal.shortest .double m e).value = i.natAbs

/-- The property that a key names: its name, or the digits of an index in range. -/
def Form.property? (form : Form) : Option Text :=
  match form.get? "name" with
  | some (.text name) => some name
  | _ => match form.get? "index" with
    | some (.number x) =>
      (x.toInt?.filter fun i => decide (IsInt64 i)).map fun i => Text.ofString (toString i)
    | _ => none

theorem toList_toString (i : Int) : (toString i).toList =
    (if i < 0 then ['-'] else []) ++ Nat.toDigits 10 i.natAbs := by
  cases i with
  | ofNat n => exact Nat.toList_repr
  | negSucc n =>
    have htext : toString (Int.negSucc n) = "-" ++ (n + 1).repr := rfl
    rw [htext, String.toList_append, Nat.toList_repr, if_pos (Int.negSucc_lt_zero n)]
    rfl

theorem numberName_eq_ofString {name : String} : Node.numberName x = Text.ofString name ↔
    (DecimalLayout.script.shortest x).toList = name.toList :=
  ⟨fun h => congrArg String.toList (Text.ofString_injective h),
    fun h => congrArg Text.ofString (String.toList_inj.mp h)⟩

/-- Of a number that is not zero only its shortest decimal matters. -/
theorem isIndex_iff {i : Int} {negative : Bool} (hi : IsInt64 i)
    (hv : x.value = .finite negative m e) (hm : m ≠ 0) :
    IsIndex x i ↔ (Decimal.shortest .double m e).value = i.natAbs := by
  refine ⟨fun h => h.2 hv hm, fun h => ⟨hi, fun hv' _ => ?_⟩⟩
  cases hv.symm.trans hv'
  exact h

/-- A zero is printed as one, with either sign, and is an index. -/
theorem numberName_zero {negative : Bool} (hv : x.value = .finite negative 0 e) :
    Node.numberName x = Text.ofString (toString (0 : Int)) ∧ IsIndex x 0 := by
  refine ⟨numberName_eq_ofString.mpr ?_, by decide, fun h hne => ?_⟩
  · rw [DecimalLayout.shortest, hv, DecimalLayout.spell, if_pos rfl]
    cases negative <;> rfl
  · cases hv.symm.trans h
    exact absurd rfl hne

/-- An integer in range is printed with its own digits exactly if it may be an index. -/
theorem numberName_eq_iff {i : Int} (hx : x.toInt? = some i) (hi : IsInt64 i) :
    Node.numberName x = Text.ofString (toString i) ↔ IsIndex x i := by
  have hsmall : i.natAbs < 10 ^ 21 := by
    have := hi.1
    have := hi.2
    omega
  cases hv : x.value with
  | nan | infinite =>
    rw [Binary64.toInt?, hv] at hx
    cases hx
  | finite negative m e =>
    obtain ⟨hvalue, hsign⟩ := Binary64.of_toInt? hv hx
    by_cases hm : m = 0
    · subst hm
      obtain rfl : i = 0 := by
        rw [Nat.cast_zero, zero_mul] at hvalue
        have : i.natAbs = 0 := by exact_mod_cast hvalue.symm
        omega
      obtain ⟨hname, hindex⟩ := numberName_zero hv
      exact iff_of_true hname hindex
    · have hr := Binary64.represents_of_value hv hm
      have hpos : 0 < i.natAbs := by
        have hmant : (0 : ℚ) < m := by exact_mod_cast hr.positive
        have : (0 : ℚ) < i.natAbs := hvalue ▸ by positivity
        exact_mod_cast this
      have hneg : i < 0 ↔ negative = true := by
        cases negative with
        | true =>
          rw [if_pos rfl] at hsign
          exact iff_of_true (by omega) rfl
        | false =>
          rw [if_neg Bool.false_ne_true] at hsign
          exact iff_of_false (by omega) Bool.false_ne_true
      rw [numberName_eq_ofString, toList_toString, DecimalLayout.shortest, hv,
        DecimalLayout.spell, if_neg hm, Json.signed_toList, isIndex_iff hi hv hm,
        ← DecimalLayout.magnitude_script_iff (Decimal.isTrimmed_shortest _ _ _)
          (Decimal.digits_ne_zero hr.positive (Decimal.shortest_contains hr)) hsmall]
      simp only [hneg, List.append_cancel_left_eq]

/-- Integers below `2 ^ 53` may be indexes. -/
theorem isIndex_of_small {i : Int} (hx : x.toInt? = some i) (hi : i.natAbs < 2 ^ 53) :
    IsIndex x i := by
  refine ⟨⟨by omega, by omega⟩, fun hv hm => ?_⟩
  exact Decimal.shortest_value (Binary64.represents_of_value hv hm) (Binary64.of_toInt? hv hx).1 hi

-- ---------------------------------------------------------------------------
-- Keys that are emitted
-- ---------------------------------------------------------------------------

/-- What a key that is not computed can be the key of. -/
inductive Keyed where
  | property
  | method
  deriving DecidableEq

/-- The four positions of a key that is not computed, with the record that has the key in it. -/
inductive Emits (key : Node) : Keyed → Form → Prop
  | objectProperty (h : objectField (.objectProperty place false shorthand key value) =
      .ok (.record [("property", form)])) : Emits key .property form
  | objectMethod (h : objectField (.objectMethod place false kind flags key params body) =
      .ok (.record [("method", form)])) : Emits key .method form
  | classProperty (h : classMembers (.classProperty place isStatic false key value :: rest) =
      .ok (form :: properties, methods)) : Emits key .property form
  | classMethod (h : classMembers
      (.classMethod place isStatic false kind flags key params body :: rest) =
      .ok (properties, form :: methods)) : Emits key .method form

/-- The key of a property is an index for every integer, in range or not. -/
def numericKey (x : Binary64) : Form.Members :=
  if x.toInt?.isSome then [("index", .number x)] else [("name", .text (Node.numberName x))]

/-- The record of a property has the key among members that are no keys. -/
theorem Emits.of_property (h : Emits (.numericLiteral place x) .property form) :
    ∃ before after, form = .record (before ++ numericKey x ++ after) ∧
      before.lookup "index" = none ∧ (before ++ after).lookup "name" = none := by
  cases h with
  | objectProperty h =>
    simp only [objectField, propertyKey, plainKey, Form.wrap, bind_ok, pure_ok] at h
    obtain ⟨v, -, key, rfl, h⟩ := h
    cases h
    exact ⟨[("value", v)], [], by rw [List.append_nil]; rfl, rfl, rfl⟩
  | @classProperty _ isStatic _ _ _ _ _ h =>
    simp only [classMembers, propertyKey, plainKey, bind_ok, pure_ok] at h
    obtain ⟨key, rfl, members, hm, ⟨ps, ms⟩, -, h⟩ := h
    cases h
    refine ⟨[("isStatic", .bool isStatic)], members, rfl, rfl, ?_⟩
    unfold optionally at hm
    split at hm
    · cases hm
      rfl
    · simp only [bind_ok, pure_ok] at hm
      obtain ⟨v, -, rfl⟩ := hm
      rfl

/-- The record of a method has the printed number as its name. -/
theorem Emits.of_method (h : Emits (.numericLiteral place x) .method form) :
    ∃ after, form = .record (("name", .text (Node.numberName x)) :: after) := by
  cases h with
  | objectMethod h =>
    simp only [objectField, propertyKey, plainKey, Form.wrap, bind_ok, pure_ok] at h
    obtain ⟨key, rfl, params, -, body, -, h⟩ := h
    have hname : nameOnly (if x.toInt?.isSome then [("index", .number x)]
        else [("name", .text (Node.numberName x))]) = [("name", .text (Node.numberName x))] := by
      split <;> rfl
    rw [Node.numberName] at hname
    rw [hname] at h
    cases h
    exact ⟨_, rfl⟩
  | classMethod h =>
    simp only [classMembers, Bool.false_eq_true, if_false, methodName, Node.name?,
      Node.valueText?, bind_ok, pure_ok] at h
    obtain ⟨name, rfl, params, -, body, -, ⟨ps, ms⟩, -, h⟩ := h
    cases h
    exact ⟨_, rfl⟩

theorem property?_numericKey (hi : before.lookup "index" = none)
    (hn : (before ++ after).lookup "name" = none) :
    (Form.record (before ++ numericKey x ++ after)).property? = some (Node.numberName x) ↔
      ∀ i, x.toInt? = some i → IsIndex x i := by
  rw [List.lookup_append, Option.or_eq_none_iff] at hn
  unfold numericKey Form.property? Form.get?
  cases hx : x.toInt? with
  | none => simp [List.lookup_append, hn.1]
  | some i =>
    have hname : (before ++ [("index", Form.number x)] ++ after).lookup "name" = none := by
      rw [List.lookup_append, List.lookup_append, hn.1, hn.2]
      rfl
    have hindex : (before ++ [("index", Form.number x)] ++ after).lookup "index" =
        some (.number x) := by simp [List.lookup_append, hi]
    simp only [Option.isSome_some, if_true, hname, hindex, hx]
    have hall : (∀ j, some i = some j → IsIndex x j) ↔ IsIndex x i :=
      ⟨fun h => h i rfl, fun h j hj => Option.some.inj hj ▸ h⟩
    rw [hall]
    by_cases hint : IsInt64 i
    · rw [Option.filter_some, if_pos (decide_eq_true hint), Option.map_some, Option.some.injEq,
        eq_comm]
      exact numberName_eq_iff hx hint
    · rw [Option.filter_some, if_neg (by simpa using hint)]
      exact iff_of_false nofun fun h => hint h.1

/-- As the key of a method, a number names the property that is called after it. As the key of a
property it does so exactly if it is no integer or may be an index, which integers below `2 ^ 53`
may. -/
theorem emitted_property_iff (x : Binary64) :
    (∀ place form, Emits (.numericLiteral place x) .method form →
      form.property? = some (Node.numberName x)) ∧
    (∀ place form, Emits (.numericLiteral place x) .property form →
      (form.property? = some (Node.numberName x) ↔ ∀ i, x.toInt? = some i → IsIndex x i)) ∧
    ∀ i, x.toInt? = some i → i.natAbs < 2 ^ 53 → IsIndex x i := by
  refine ⟨fun place form h => ?_, fun place form h => ?_, fun i => isIndex_of_small⟩
  · obtain ⟨after, rfl⟩ := h.of_method
    rfl
  · obtain ⟨before, after, rfl, hi, hn⟩ := h.of_property
    exact property?_numericKey hi hn

/-- The literal `{7: null}` has the property `7`. -/
theorem emitted_property_seven :
    ∃ form, Emits (.numericLiteral none (.ofInt 7)) .property form ∧
      form.property? = some (Node.numberName (.ofInt 7)) := by
  have hx : (Binary64.ofInt 7).toInt? = some 7 := by decide
  have hemits := @Emits.objectProperty (.numericLiteral none (.ofInt 7)) none false
    (.nullLiteral none) _ rfl
  obtain ⟨-, hproperty, hsmall⟩ := emitted_property_iff (.ofInt 7)
  refine ⟨_, hemits, (hproperty none _ hemits).mpr fun i hi => ?_⟩
  cases hx.symm.trans hi
  exact hsmall 7 hx (by decide)

/-- The literal `{1e21: null}` is converted to an index that is out of range. -/
theorem emitted_property_large :
    ¬∀ x place keyed form, Emits (.numericLiteral place x) keyed form →
      form.property? = some (Node.numberName x) := by
  intro h
  have hx : (Binary64.ofInt (10 ^ 21)).toInt? = some (10 ^ 21) := by decide
  have hemits := @Emits.objectProperty (.numericLiteral none (.ofInt (10 ^ 21))) none false
    (.nullLiteral none) _ rfl
  have hname := h _ _ _ _ hemits
  obtain ⟨before, after, hform, hi, hn⟩ := hemits.of_property
  rw [hform] at hname
  have hindex := (property?_numericKey hi hn).mp hname _ hx
  exact absurd hindex.1 (by decide)

end Script

end Treewire
