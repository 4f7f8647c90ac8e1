import Treewire.Json.Reader
import Treewire.Proofs.Shortest

/-!
# Numbers as they are written

Integers are written with all their digits, and floating-point numbers with the shortest decimal
that rounds to them, with a point or an exponent or both. Either way the number is read as itself.
-/

namespace Treewire.Json

variable {whole fraction tail cs : List Char} {n : Nat} {negative : Bool}

-- ---------------------------------------------------------------------------
-- Digits
-- ---------------------------------------------------------------------------

theorem digitsValue_eq (cs : List Char) : digitsValue cs = Nat.ofDigitChars 10 cs 0 := by
  have hstep : (fun (n : Nat) (c : Char) => n * 10 + (c.toNat - 48)) =
      fun n c => 10 * n + (c.toNat - '0'.toNat) := by
    funext n c
    rw [Nat.mul_comm]
    rfl
  rw [digitsValue, Nat.ofDigitChars_eq_foldl, hstep]

theorem digitsValue_toDigits (n : Nat) : digitsValue (Nat.toDigits 10 n) = n := by
  rw [digitsValue_eq, Nat.ofDigitChars_ten_toDigits]

theorem digitsValue_append_zeros (cs : List Char) (k : Nat) :
    digitsValue (cs ++ List.replicate k '0') = digitsValue cs * 10 ^ k := by
  rw [digitsValue_eq, digitsValue_eq, Nat.ofDigitChars_append, Nat.ofDigitChars_replicate_zero,
    Nat.mul_comm]

theorem digitsValue_zeros_append (cs : List Char) (k : Nat) :
    digitsValue (List.replicate k '0' ++ cs) = digitsValue cs := by
  rw [digitsValue_eq, digitsValue_eq, Nat.ofDigitChars_append, Nat.ofDigitChars_replicate_zero,
    Nat.mul_zero]

/-- Digits only. -/
def Digits (cs : List Char) : Prop := ∀ c ∈ cs, c.isDigit = true

theorem digits_toDigits (n : Nat) : Digits (Nat.toDigits 10 n) :=
  fun _ hc => Nat.isDigit_of_mem_toDigits (by decide) (by decide) hc

theorem digits_zeros (k : Nat) : Digits (List.replicate k '0') := by
  intro c hc
  rw [(List.mem_replicate.mp hc).2]
  rfl

theorem Digits.append (h : Digits cs) (h' : Digits tail) : Digits (cs ++ tail) :=
  List.forall_mem_append.mpr ⟨h, h'⟩

/-- The digits of a positive number do not begin with a zero. -/
theorem toDigits_cons (hn : n ≠ 0) : ∃ first others,
    Nat.toDigits 10 n = first :: others ∧ first ≠ '0' := by
  induction n using Nat.strongRecOn with
  | ind n ih =>
    by_cases hlt : n < 10
    · refine ⟨n.digitChar, [], Nat.toDigits_of_lt_base hlt, ?_⟩
      rwa [ne_eq, Nat.digitChar_eq_zero]
    · obtain ⟨first, others, ho, hf⟩ := ih (n / 10) (by omega) (by omega)
      refine ⟨first, others ++ [(n % 10).digitChar], ?_, hf⟩
      rw [Nat.toDigits_of_base_le (by decide) (by omega), ho, List.cons_append]

-- ---------------------------------------------------------------------------
-- Reading
-- ---------------------------------------------------------------------------

/-- What may stand before a point: digits, with no zero in front of others. -/
structure IsWhole (whole : List Char) : Prop where
  digits : Digits whole
  nonempty : whole ≠ []
  head : 1 < whole.length → whole.head? ≠ some '0'

theorem IsWhole.guard (hw : IsWhole whole) :
    ¬(whole.isEmpty = true ∨ whole.length > 1 ∧ whole.head? = some '0') := by
  rintro (h | h)
  · exact hw.nonempty (List.isEmpty_iff.mp h)
  · exact hw.head h.1 h.2

theorem isWhole_cons (hd : Digits (first :: cs)) (hf : first ≠ '0') : IsWhole (first :: cs) :=
  ⟨hd, List.cons_ne_nil _ _, fun _ => by simpa using hf⟩

theorem isWhole_toDigits (n : Nat) : IsWhole (Nat.toDigits 10 n) := by
  by_cases hn : n = 0
  · subst hn
    exact ⟨digits_toDigits 0, List.cons_ne_nil _ _, fun h => (Nat.lt_irrefl _ h).elim⟩
  · obtain ⟨first, others, ho, hf⟩ := toDigits_cons hn
    have hd := digits_toDigits n
    rw [ho] at hd ⊢
    exact isWhole_cons hd hf

/-- Characters of a kind reach up to the first of another. -/
theorem span_kind {p : Char → Bool} (tail : List Char) (hp : ∀ c ∈ cs, p c = true)
    (ht : ∀ c, tail.head? = some c → p c = false) :
    (cs ++ tail).takeWhile p = cs ∧ (cs ++ tail).dropWhile p = tail := by
  rw [List.takeWhile_append_of_pos hp, List.dropWhile_append_of_pos hp]
  cases tail with
  | nil => exact ⟨List.append_nil cs, rfl⟩
  | cons c rest =>
    have hc : ¬p c = true := by simp [ht c rfl]
    rw [List.takeWhile_cons_of_neg hc, List.dropWhile_cons_of_neg hc, List.append_nil]
    exact ⟨rfl, rfl⟩

theorem unsigned?_whole (hw : IsWhole whole) : unsigned? negative whole =
    some (.int (if negative then -(digitsValue whole : Int) else digitsValue whole)) := by
  obtain ⟨htake, hdrop⟩ := span_kind [] hw.digits (by rintro c ⟨⟩)
  rw [List.append_nil] at htake hdrop
  unfold unsigned?
  simp only [htake, hdrop, if_neg hw.guard]

/-- The exponent after a fraction, zero if there is none. -/
def power? : List Char → Option Int
  | [] => some 0
  | e :: power => if e = 'e' ∨ e = 'E' then exponent? power else none

theorem head_of_power? (hp : power? tail = some power) :
    ∀ c, tail.head? = some c → c.isDigit = false := by
  intro c hc
  cases tail with
  | nil => cases hc
  | cons e rest =>
    cases hc
    rw [power?] at hp
    split at hp
    · rename_i he
      rcases he with rfl | rfl <;> rfl
    · cases hp

theorem unsigned?_pointed (negative : Bool) (hw : IsWhole whole) (hf : Digits fraction)
    (hn : fraction ≠ []) (hp : power? tail = some power) :
    unsigned? negative (whole ++ '.' :: (fraction ++ tail)) =
      some (.float (.ofDecimal negative (digitsValue (whole ++ fraction))
        (power - fraction.length))) := by
  obtain ⟨htake, hdrop⟩ := span_kind ('.' :: (fraction ++ tail)) hw.digits
    (by rintro c ⟨⟩; rfl)
  obtain ⟨htake', hdrop'⟩ := span_kind tail hf (head_of_power? hp)
  have hsome : ¬fraction.isEmpty = true := fun h => hn (List.isEmpty_iff.mp h)
  unfold unsigned?
  simp only [htake, hdrop, if_neg hw.guard, if_true, htake', hdrop', true_and, if_neg hsome]
  cases tail with
  | nil =>
    cases hp
    rfl
  | cons e rest =>
    rw [power?] at hp
    simp only [hp, Option.map_some]

theorem unsigned?_unpowered (negative : Bool) (hw : IsWhole whole) (hf : Digits fraction)
    (hn : fraction ≠ []) : unsigned? negative (whole ++ '.' :: fraction) =
      some (.float (.ofDecimal negative (digitsValue (whole ++ fraction))
        (-(fraction.length : Int)))) := by
  have hp : power? [] = some 0 := rfl
  have hread := unsigned?_pointed negative hw hf hn hp
  rwa [List.append_nil, Int.zero_sub] at hread

theorem unsigned?_powered (negative : Bool) (hw : IsWhole whole)
    (hp : exponent? cs = some power) : unsigned? negative (whole ++ 'e' :: cs) =
      some (.float (.ofDecimal negative (digitsValue whole) power)) := by
  obtain ⟨htake, hdrop⟩ := span_kind ('e' :: cs) hw.digits (by rintro c ⟨⟩; rfl)
  have hpoint : ¬('e' = '.') := by decide
  unfold unsigned?
  simp only [htake, hdrop, if_neg hw.guard, hpoint, false_and, if_false, true_or, if_true, hp,
    Option.map_some, List.append_nil, List.length_nil, Nat.cast_zero, Int.sub_zero]

/-- An exponent with its sign, and zeros in front of its digits. -/
theorem exponent?_padded (k : Nat) (power : Int) :
    exponent? ((if power < 0 then '-' else '+') ::
      (List.replicate k '0' ++ Nat.toDigits 10 power.natAbs)) = some power := by
  have hdigits := (digits_zeros k).append (digits_toDigits power.natAbs)
  have hguard : ¬((List.replicate k '0' ++ Nat.toDigits 10 power.natAbs).isEmpty = true ∨
      (List.replicate k '0' ++ Nat.toDigits 10 power.natAbs).any (!·.isDigit) = true) := by
    rintro (h | h)
    · simp at h
    · obtain ⟨c, hc, hn⟩ := List.any_eq_true.mp h
      simp [hdigits c hc] at hn
  have hvalue : digitsValue (List.replicate k '0' ++ Nat.toDigits 10 power.natAbs) =
      power.natAbs := by
    rw [digitsValue_zeros_append, digitsValue_toDigits]
  by_cases h : power < 0
  · have hsign : -(power.natAbs : Int) = power := by omega
    simp only [if_pos h, exponent?, if_neg hguard, hvalue]
    exact congrArg some hsign
  · have hsign : (power.natAbs : Int) = power := by omega
    simp only [if_neg h, exponent?, if_neg hguard, hvalue]
    exact congrArg some hsign

-- ---------------------------------------------------------------------------
-- Layouts
-- ---------------------------------------------------------------------------

variable {l : DecimalLayout} {d : Decimal}

/-- Characters that are read as a decimal of the value, with either sign. -/
def ReadAs (cs : List Char) (v : ℚ) : Prop := ∀ negative, ∃ digits exponent,
  unsigned? negative cs = some (.float (.ofDecimal negative digits exponent)) ∧
    Decimal.value ⟨digits, exponent⟩ = v

theorem readAs_unpowered (hw : IsWhole whole) (hf : Digits fraction) (hn : fraction ≠ [])
    (hv : digitsValue (whole ++ fraction) * (10 : ℚ) ^ (-(fraction.length : Int)) = v) :
    ReadAs (whole ++ '.' :: fraction) v :=
  fun negative => ⟨_, _, unsigned?_unpowered negative hw hf hn, hv⟩

variable {first : Char} {others : List Char}

/-- The digits, zeros, and a point with a zero after it. -/
theorem readAs_integer (hd : Digits (first :: others)) (hf : first ≠ '0') (k : Nat) :
    ReadAs (first :: others ++ List.replicate k '0' ++ ['.', '0'])
      (digitsValue (first :: others) * 10 ^ (k : Int)) := by
  have hwhole : IsWhole (first :: others ++ List.replicate k '0') :=
    isWhole_cons (hd.append (digits_zeros k)) hf
  refine readAs_unpowered hwhole (digits_zeros 1) (List.cons_ne_nil '0' []) ?_
  have hnumber : digitsValue (first :: others ++ List.replicate k '0' ++ ['0']) =
      digitsValue (first :: others) * 10 ^ k * 10 := by
    rw [← List.replicate_one, digitsValue_append_zeros, digitsValue_append_zeros, Nat.pow_one]
  have hexponent : -(['0'].length : Int) = -1 := rfl
  rw [hnumber, hexponent, zpow_neg_one, zpow_natCast]
  push_cast
  exact mul_inv_cancel_right₀ (by norm_num) _

/-- The point stands among the digits. -/
theorem readAs_among (hd : Digits (first :: others)) (hf : first ≠ '0')
    (hk : k < others.length) :
    ReadAs ((first :: others).take (k + 1) ++ '.' :: (first :: others).drop (k + 1))
      (digitsValue (first :: others) * 10 ^ ((k : Int) - others.length)) := by
  rw [List.take_succ_cons, List.drop_succ_cons]
  have hrest : others.drop k ≠ [] := by
    rw [← List.length_pos_iff, List.length_drop]
    omega
  have hwhole : IsWhole (first :: others.take k) :=
    isWhole_cons (fun c hc => hd c (List.cons_subset_cons _ (List.take_subset k _) hc)) hf
  refine readAs_unpowered hwhole
    (fun c hc => hd c (List.mem_cons_of_mem _ (List.mem_of_mem_drop hc))) hrest ?_
  have hexponent : -((others.drop k).length : Int) = (k : Int) - others.length := by
    rw [List.length_drop]
    omega
  rw [hexponent, List.cons_append, List.take_append_drop]

/-- Zeros stand between the point and the digits. -/
theorem readAs_below (hd : Digits cs) (hn : cs ≠ []) (k : Nat) :
    ReadAs ('0' :: '.' :: List.replicate k '0' ++ cs)
      (digitsValue cs * 10 ^ (-((k : Int) + cs.length))) := by
  have hsome : List.replicate k '0' ++ cs ≠ [] := fun h => hn (List.append_eq_nil_iff.mp h).2
  have hnumber : digitsValue (Nat.toDigits 10 0 ++ (List.replicate k '0' ++ cs)) =
      digitsValue cs := digitsValue_zeros_append cs (k + 1)
  have hv : digitsValue (Nat.toDigits 10 0 ++ (List.replicate k '0' ++ cs)) *
      (10 : ℚ) ^ (-((List.replicate k '0' ++ cs).length : Int)) =
        digitsValue cs * 10 ^ (-((k : Int) + cs.length)) := by
    rw [hnumber, List.length_append, List.length_replicate, Nat.cast_add]
  exact readAs_unpowered (isWhole_toDigits 0) ((digits_zeros k).append hd) hsome hv

/-- One digit, the others after a point, and the exponent. -/
theorem readAs_powered (hd : Digits (first :: others)) (hf : first ≠ '0') (k : Nat) (power : Int) :
    ReadAs ((match first :: others with
        | [] => []
        | [only] => [only]
        | head :: rest => head :: '.' :: rest) ++
          'e' :: (if power < 0 then '-' else '+') ::
            (List.replicate k '0' ++ Nat.toDigits 10 power.natAbs))
      (digitsValue (first :: others) * 10 ^ (power - others.length)) := by
  have hfirst : IsWhole [first] :=
    isWhole_cons (fun c hc => hd c (List.cons_subset_cons _ (List.nil_subset _) hc)) hf
  have hpower := exponent?_padded k power
  cases others with
  | nil =>
    refine fun negative => ⟨_, _, unsigned?_powered negative hfirst hpower, ?_⟩
    rw [List.length_nil, Nat.cast_zero, Int.sub_zero]
    rfl
  | cons second more =>
    have hothers : Digits (second :: more) := fun c hc => hd c (List.mem_cons_of_mem _ hc)
    exact fun negative =>
      ⟨_, _, unsigned?_pointed negative hfirst hothers (List.cons_ne_nil _ _) hpower, rfl⟩

/-- A decimal is read as one of the same value, whatever the layout makes of its exponent. -/
theorem readAs_magnitude (hl : l.pointed = true) (hd : d.digits ≠ 0) :
    ReadAs (l.magnitude d).toList d.value := by
  obtain ⟨number, exponent⟩ := d
  have hvalue := digitsValue_toDigits number
  have hdigits := digits_toDigits number
  obtain ⟨first, others, ho, hf⟩ := toDigits_cons hd
  unfold DecimalLayout.magnitude Decimal.value
  dsimp only
  rw [ho] at hvalue hdigits ⊢
  rw [← hvalue]
  generalize hs : exponent + ((first :: others).length : Int) - 1 = scientific
  rw [List.length_cons] at hs
  by_cases hwritten : l.least ≤ scientific ∧ scientific < l.bound
  · rw [if_pos hwritten]
    by_cases hinteger : 0 ≤ exponent
    · obtain ⟨k, rfl⟩ := Int.eq_ofNat_of_zero_le hinteger
      rw [if_pos hinteger, hl, if_pos rfl, String.toList_append, String.toList_ofList]
      exact readAs_integer hdigits hf k
    rw [if_neg hinteger]
    by_cases hpoint : 0 ≤ scientific
    · obtain ⟨k, rfl⟩ := Int.eq_ofNat_of_zero_le hpoint
      have hexponent : exponent = (k : Int) - others.length := by omega
      rw [if_pos hpoint, String.toList_ofList, hexponent]
      exact readAs_among hdigits hf (by omega)
    · have hexponent : exponent =
          -(((-scientific - 1).toNat : Int) + (first :: others).length) := by
        rw [List.length_cons]
        omega
      rw [if_neg hpoint, String.toList_ofList, hexponent]
      exact readAs_below hdigits (List.cons_ne_nil _ _) _
  · have hexponent : exponent = scientific - others.length := by omega
    rw [if_neg hwritten, String.toList_ofList, hexponent]
    exact readAs_powered hdigits hf _ scientific

/-- What numbers are written with. -/
def Figures (cs : List Char) : Prop := ∀ c ∈ cs, isNumberChar c = true

theorem Digits.figures (h : Digits cs) : Figures cs := fun c hc => by simp [isNumberChar, h c hc]

theorem Figures.append (h : Figures cs) (h' : Figures tail) : Figures (cs ++ tail) :=
  List.forall_mem_append.mpr ⟨h, h'⟩

theorem Figures.cons (hc : isNumberChar c = true) (h : Figures cs) : Figures (c :: cs) :=
  List.forall_mem_cons.mpr ⟨hc, h⟩

theorem figures_magnitude (l : DecimalLayout) (d : Decimal) : Figures (l.magnitude d).toList := by
  have hdigits := digits_toDigits d.digits
  unfold DecimalLayout.magnitude
  dsimp only
  generalize d.exponent + ((Nat.toDigits 10 d.digits).length : Int) - 1 = scientific
  generalize Nat.toDigits 10 d.digits = digits at hdigits
  split
  · split
    · rw [String.toList_append, String.toList_ofList]
      refine (hdigits.append (digits_zeros _)).figures.append ?_
      cases l.pointed <;> exact List.all_eq_true.mp rfl
    split
    · rw [String.toList_ofList]
      refine Figures.append (fun c hc => hdigits.figures c (List.mem_of_mem_take hc)) ?_
      exact .cons rfl fun c hc => hdigits.figures c (List.mem_of_mem_drop hc)
    · rw [String.toList_ofList]
      exact .cons rfl (.cons rfl ((digits_zeros _).figures.append hdigits.figures))
  · rw [String.toList_ofList]
    have hpower := (digits_zeros (l.exponentWidth -
      (Nat.toDigits 10 scientific.natAbs).length)).append (digits_toDigits scientific.natAbs)
    refine Figures.append ?_ (.cons rfl (.cons ?_ hpower.figures))
    · split
      · exact hdigits.figures
      · exact hdigits.figures
      · exact .cons (hdigits.figures _ List.mem_cons_self)
          (.cons rfl fun c hc => hdigits.figures c (List.mem_cons_of_mem _ hc))
    · split <;> rfl

-- ---------------------------------------------------------------------------
-- Numbers
-- ---------------------------------------------------------------------------

/-- Characters that are read as a number. -/
structure Spells (cs : List Char) (v : Json) : Prop where
  figures : Figures cs
  reads : number? cs = some v

theorem number?_of_unsigned? (h : unsigned? false cs = some v) : number? cs = some v := by
  rw [number?]
  · exact h
  · rintro rest rfl
    cases h

theorem spells_int (i : Int) : Spells (toString i).toList (.int i) := by
  cases i with
  | ofNat n =>
    have htext : (toString (Int.ofNat n)).toList = Nat.toDigits 10 n := Nat.toList_repr
    rw [htext]
    refine ⟨(digits_toDigits n).figures, number?_of_unsigned? ?_⟩
    rw [unsigned?_whole (isWhole_toDigits n), digitsValue_toDigits]
    rfl
  | negSucc n =>
    have htext : (toString (Int.negSucc n)).toList = '-' :: Nat.toDigits 10 (n + 1) := by
      have happend : toString (Int.negSucc n) = "-" ++ (n + 1).repr := rfl
      rw [happend, String.toList_append, Nat.toList_repr]
      rfl
    rw [htext]
    refine ⟨.cons rfl (digits_toDigits _).figures, ?_⟩
    rw [number?, unsigned?_whole (isWhole_toDigits _), digitsValue_toDigits]
    rfl

theorem spells_signed (hf : Figures cs) (negative : Bool)
    (hr : unsigned? negative cs = some v) :
    Spells ((if negative then ['-'] else []) ++ cs) v := by
  cases negative with
  | true => exact ⟨.cons rfl hf, hr⟩
  | false => exact ⟨hf, number?_of_unsigned? hr⟩

theorem signed_toList (negative : Bool) (text : String) :
    (DecimalLayout.signed negative text).toList =
      (if negative then ['-'] else []) ++ text.toList := by
  cases negative with
  | true => rw [DecimalLayout.signed, if_pos rfl, String.toList_append]; rfl
  | false => rfl

/-- A finite number is read as itself. -/
theorem spells_float {x : Binary64} (hx : x.value = .finite negative m e) :
    Spells (floatText x).toList (.float x) := by
  have htext : floatText x = if m = 0 then DecimalLayout.report.zero negative
      else DecimalLayout.signed negative
        (DecimalLayout.report.magnitude (Decimal.shortest .double m e)) := by
    unfold floatText DecimalLayout.shortest
    rw [hx]
    rfl
  rw [htext]
  by_cases hm : m = 0
  · subst hm
    have hsign : (negative && DecimalLayout.report.signedZero) = negative := Bool.and_true negative
    have hread := unsigned?_unpowered negative (isWhole_toDigits 0) (digits_zeros 1)
      (List.cons_ne_nil _ _)
    have hzero : digitsValue (Nat.toDigits 10 0 ++ List.replicate 1 '0') = 0 := rfl
    rw [hzero, Binary64.ofDecimal_zero hx] at hread
    rw [if_pos rfl, DecimalLayout.zero, hsign, signed_toList]
    exact spells_signed (List.all_eq_true.mp rfl) negative hread
  · have hr := Binary64.represents_of_value hx hm
    have hcontains := Decimal.shortest_contains hr
    obtain ⟨digits, exponent, hread, hvalue⟩ := readAs_magnitude (l := .report) rfl
      (Decimal.digits_ne_zero hr.positive hcontains) negative
    rw [← hvalue] at hcontains
    rw [Binary64.ofDecimal_of_contains hx hm hcontains] at hread
    rw [if_neg hm, signed_toList]
    exact spells_signed (figures_magnitude _ _) negative hread

end Treewire.Json
