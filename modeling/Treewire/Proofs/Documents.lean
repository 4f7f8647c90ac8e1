import Treewire.Proofs.Figures
import Treewire.Proofs.Utf8

/-!
# Documents that are read again

A value with finite numbers and without surrogates is legible: written on one line or on several, in
ASCII or not, it is read as itself, and of several documents in a row each is. The two passes of the reader are
followed one after the other, so that for every value there are tokens that the first pass finds in
its characters, and that the second pass folds into the value.
-/

namespace Treewire.Json

-- ---------------------------------------------------------------------------
-- Documents in a row
-- ---------------------------------------------------------------------------

/-- The values so far and the state of the next one. A value that is complete joins them. -/
def State.joined (done : List Json) (s : State) : List Json × State :=
  match s.expected with
  | .nothing v => (v :: done, ⟨[], .value⟩)
  | _ => (done, s)

/-- Takes the next token of documents in a row. -/
def State.next? (so : List Json × State) (t : Token) : Option (List Json × State) :=
  (so.2.take? t).map (State.joined so.1)

/-- The values that a text denotes, if it is documents in a row. -/
def documents? (s : String) : Option (List Json) := do
  let tokens ← tokens? s.toList
  let (done, last) ← tokens.foldlM State.next? ([], ⟨[], .value⟩)
  match last with
  | ⟨[], .value⟩ => some done.reverse
  | _ => none

/-- A value that a document can hold as it is. -/
inductive Legible : Json → Prop where
  | null : Legible .null
  | bool (b : Bool) : Legible (.bool b)
  | int (i : Int) : Legible (.int i)
  | float (hx : x.value = .finite negative mantissa exponent) : Legible (.float x)
  | text (cs : List Char) : Legible (.text (Text.ofChars cs))
  | array (h : ∀ v ∈ items, Legible v) : Legible (.array items)
  | object (h : ∀ member ∈ members, Legible member.2) : Legible (.object members)

-- ---------------------------------------------------------------------------
-- Cutting
-- ---------------------------------------------------------------------------

variable {c : Char} {cs rest after : List Char} {t : Token} {v : Json}

theorem tokens?_blank (h : c = ' ' ∨ c = '\t' ∨ c = '\n' ∨ c = '\r') :
    tokens? (c :: rest) = tokens? rest := by
  rw [tokens?, if_pos h]

theorem tokens?_cons (hc : ¬(c = ' ' ∨ c = '\t' ∨ c = '\n' ∨ c = '\r'))
    (ht : token? c rest = some (t, after)) (hl : after.length ≤ rest.length) :
    tokens? (c :: rest) = (tokens? after).map (t :: ·) := by
  rw [tokens?, if_neg hc, ht]
  dsimp only
  rw [if_pos hl]

/-- What ends a word or a number that stands in front. -/
def Boundary (cs : List Char) : Prop :=
  ∀ c, cs.head? = some c → c.isAlpha = false ∧ isNumberChar c = false

theorem boundary_cons (ha : c.isAlpha = false) (hn : isNumberChar c = false) :
    Boundary (c :: cs) := by
  rintro d ⟨⟩
  exact ⟨ha, hn⟩

theorem isDigit_bounds (c : Char) : c.isDigit = true ↔ 48 ≤ c.toNat ∧ c.toNat ≤ 57 := by
  simp only [Char.isDigit, Bool.and_eq_true, decide_eq_true_eq, ge_iff_le, UInt32.le_iff_toNat_le]
  rfl

theorem isAlpha_of_isDigit (h : c.isDigit = true) : c.isAlpha = false := by
  have hbounds := (isDigit_bounds c).mp h
  rw [Bool.eq_false_iff]
  intro ha
  obtain hu | hl : c.isUpper = true ∨ c.isLower = true := Bool.or_eq_true_iff.mp ha
  · have upper : 65 ≤ c.toNat := (of_decide_eq_true hu).1
    omega
  · have lower : 97 ≤ c.toNat := of_decide_eq_true (Bool.and_eq_true_iff.mp hl).1
    omega

/-- The characters that are tokens by themselves, or begin a text. -/
def marks : List Char := ['[', ']', '\x7b', '\x7d', ',', ':', '"']

/-- Other characters begin a word or a number. -/
theorem token?_plain (h : c ∉ marks) : token? c rest =
    if c.isAlpha then
      (word? (c :: rest.takeWhile Char.isAlpha)).map fun v => (.leaf v, rest.dropWhile Char.isAlpha)
    else
      (number? (c :: rest.takeWhile isNumberChar)).map fun v =>
        (.leaf v, rest.dropWhile isNumberChar) := by
  unfold token?
  split
  all_goals first
    | rfl
    | exact absurd (by decide) h

/-- The first character of a number. -/
theorem head_of_number? (h : number? cs = some v) :
    ∃ c more, cs = c :: more ∧ (c = '-' ∨ c.isDigit = true) := by
  have unsigned {negative : Bool} {cs : List Char} (h : unsigned? negative cs = some v) :
      ∃ c more, cs = c :: more ∧ c.isDigit = true := by
    cases cs with
    | nil => cases h
    | cons c more =>
      refine ⟨c, more, rfl, ?_⟩
      by_contra hc
      unfold unsigned? at h
      rw [List.takeWhile_cons_of_neg hc] at h
      cases h
  unfold number? at h
  split at h
  · exact ⟨_, _, rfl, .inl rfl⟩
  · obtain ⟨c, more, rfl, hc⟩ := unsigned h
    exact ⟨c, more, rfl, .inr hc⟩

theorem tokens?_spelled (h : Spells cs v) (hb : Boundary rest) :
    tokens? (cs ++ rest) = (tokens? rest).map (.leaf v :: ·) := by
  obtain ⟨c, more, rfl, hc⟩ := head_of_number? h.reads
  obtain ⟨htake, hdrop⟩ := span_kind rest (fun d hd => h.figures d (List.mem_cons_of_mem _ hd))
    fun d hd => (hb d hd).2
  have halpha : c.isAlpha = false := by
    rcases hc with rfl | hc
    · rfl
    · exact isAlpha_of_isDigit hc
  have hmark : c ∉ marks := by
    rcases hc with rfl | hc
    · decide
    · have none : ∀ d ∈ marks, (!d.isDigit) = true := List.all_eq_true.mp rfl
      intro hm
      simpa [hc] using none c hm
  have hblank : ¬(c = ' ' ∨ c = '\t' ∨ c = '\n' ∨ c = '\r') := by
    rcases hc with rfl | hc
    · decide
    · rintro (rfl | rfl | rfl | rfl) <;> cases hc
  have ht : token? c (more ++ rest) = some (.leaf v, rest) := by
    rw [token?_plain hmark, halpha, if_neg Bool.false_ne_true, htake, hdrop, h.reads]
    rfl
  exact tokens?_cons hblank ht (by simp)

/-- A word that stands for a value. -/
theorem tokens?_word (ha : ∀ d ∈ c :: cs, d.isAlpha = true) (hw : word? (c :: cs) = some v)
    (hb : Boundary rest) :
    tokens? (c :: cs ++ rest) = (tokens? rest).map (.leaf v :: ·) := by
  obtain ⟨htake, hdrop⟩ := span_kind rest (fun d hd => ha d (List.mem_cons_of_mem _ hd))
    fun d hd => (hb d hd).1
  have hc := ha c List.mem_cons_self
  have hmark : c ∉ marks := by
    have none : ∀ d ∈ marks, (!d.isAlpha) = true := List.all_eq_true.mp rfl
    intro hm
    simpa [hc] using none c hm
  have hblank : ¬(c = ' ' ∨ c = '\t' ∨ c = '\n' ∨ c = '\r') := by
    rintro (rfl | rfl | rfl | rfl) <;> cases hc
  have ht : token? c (cs ++ rest) = some (.leaf v, rest) := by
    rw [token?_plain hmark, if_pos hc, htake, hdrop, hw]
    rfl
  exact tokens?_cons hblank ht (by simp)

-- ---------------------------------------------------------------------------
-- Texts
-- ---------------------------------------------------------------------------

theorem hexValue?_hexDigit (n : Nat) : hexValue? (hexDigit n) = some (n % 16) := by
  have all : ∀ k : Fin 16, hexValue? (Nat.digitChar k.val) = some k.val := by decide
  exact all ⟨n % 16, Nat.mod_lt n (by decide)⟩

theorem quoted_simple (h : simpleEscape? c = some n) (rest : List Char) :
    quoted ('\\' :: c :: rest) = (quoted rest).map fun r => (n :: r.1, r.2) := by
  have hu : c ≠ 'u' := by
    rintro rfl
    cases h
  rw [quoted]
  · rw [h]
    cases quoted rest <;> rfl
  · rintro a b d e more rfl
    exact absurd rfl hu

theorem quoted_unit (h : n < 0x10000) (rest : List Char) :
    quoted (unitEscape n ++ rest) = (quoted rest).map fun r => (n :: r.1, r.2) := by
  have hvalue : n / 4096 % 16 * 4096 + n / 256 % 16 * 256 + n / 16 % 16 * 16 + n % 16 = n := by
    omega
  rw [unitEscape, hex4, List.cons_append, List.cons_append, List.cons_append, List.cons_append,
    List.cons_append, List.cons_append, List.nil_append, quoted]
  simp only [hexValue?_hexDigit, Option.bind_eq_bind, Option.bind_some, hvalue]
  cases quoted rest <;> rfl

theorem quoted_plain (hq : c ≠ '"') (hb : c ≠ '\\') (hc : 0x20 ≤ c.toNat) (rest : List Char) :
    quoted (c :: rest) = (quoted rest).map fun r => (c.toNat :: r.1, r.2) := by
  rw [quoted]
  · rw [if_neg (by omega)]
    cases quoted rest <;> rfl
  · exact hq
  · rintro a b d e more rfl
    exact absurd rfl hb
  · rintro d more rfl
    exact absurd rfl hb

/-- The code points that are read for a character. In ASCII it may be written as two surrogates. -/
def units (ascii : Bool) (c : Char) : List Nat :=
  if ascii = true ∧ 0x10000 ≤ c.toNat then
    [0xD800 + (c.toNat - 0x10000) / 1024, 0xDC00 + (c.toNat - 0x10000) % 1024]
  else [c.toNat]

theorem units_of_lt {ascii : Bool} (h : c.toNat < 0x10000) : units ascii c = [c.toNat] :=
  if_neg fun hc => Nat.not_le.mpr h hc.2

/-- A character is read from what is written for it. -/
theorem quoted_symbol (ascii : Bool) (c : Char) (rest : List Char) :
    quoted (symbolChars ascii (.scalar c) ++ rest) =
      (quoted rest).map fun r => (units ascii c ++ r.1, r.2) := by
  unfold symbolChars
  split
  all_goals rename_i h
  iterate 7
    · cases h
      rw [units_of_lt (by decide)]
      exact quoted_simple rfl rest
  · rename_i hquote hbackslash _ _ _ _ _
    obtain ⟨⟩ := h
    have hbounds := Utf8.toNat_bounds c
    by_cases hc : c.toNat < 0x20 ∨ (ascii = true ∧ 0x7F ≤ c.toNat)
    · rw [if_pos hc, escape]
      by_cases hlow : c.toNat < 0x10000
      · rw [if_pos hlow, units_of_lt hlow]
        exact quoted_unit hlow rest
      · have hascii : ascii = true := (hc.resolve_left (by omega)).1
        rw [if_neg hlow, units, if_pos ⟨hascii, Nat.le_of_not_lt hlow⟩, List.append_assoc,
          quoted_unit (by omega), quoted_unit (by omega), Option.map_map]
        rfl
    · have hunits : units ascii c = [c.toNat] := by
        refine if_neg fun h => hc (.inr ⟨h.1, by omega⟩)
      rw [if_neg hc, hunits]
      exact quoted_plain hquote hbackslash (by omega) rest
  · cases h

theorem quoted_symbols (ascii : Bool) (cs rest : List Char) :
    quoted ((Text.ofChars cs).flatMap (symbolChars ascii) ++ '"' :: rest) =
      some (cs.flatMap (units ascii), rest) := by
  induction cs with
  | nil => rfl
  | cons c cs ih =>
    have hcons : (Text.ofChars (c :: cs)).flatMap (symbolChars ascii) =
        symbolChars ascii (.scalar c) ++ (Text.ofChars cs).flatMap (symbolChars ascii) := rfl
    rw [hcons, List.append_assoc, quoted_symbol, ih]
    rfl

theorem pairSurrogates_single (hn : ¬(0xD800 ≤ n ∧ n < 0xDC00)) (more : List Nat) :
    pairSurrogates (n :: more) = .ofCodePoint n :: pairSurrogates more := by
  cases more with
  | nil => rfl
  | cons d more => exact if_neg fun h => hn ⟨h.1, h.2.1⟩

/-- Two surrogates stand for a character, and no two characters are taken for a pair. -/
theorem pairSurrogates_chars (ascii : Bool) (cs : List Char) :
    pairSurrogates (cs.flatMap (units ascii)) = Text.ofChars cs := by
  induction cs with
  | nil => rfl
  | cons c cs ih =>
    have hc := Utf8.toNat_bounds c
    rw [List.flatMap_cons]
    by_cases hpair : ascii = true ∧ 0x10000 ≤ c.toNat
    · have hvalue : 0x10000 + (0xD800 + (c.toNat - 0x10000) / 1024 - 0xD800) * 1024 +
          (0xDC00 + (c.toNat - 0x10000) % 1024 - 0xDC00) = c.toNat := by
        omega
      rw [units, if_pos hpair, List.cons_append, List.cons_append, List.nil_append,
        pairSurrogates, if_pos (by omega), hvalue, Char.ofNat_toNat, ih]
      rfl
    · have hone : Symbol.ofCodePoint c.toNat = .scalar c := by
        rw [Symbol.ofCodePoint, dif_neg (by omega), Char.ofNat_toNat]
      rw [units, if_neg hpair, List.singleton_append, pairSurrogates_single (by omega), hone, ih]
      rfl

theorem tokens?_text (ascii : Bool) (cs rest : List Char) :
    tokens? (textChars ascii (Text.ofChars cs) ++ rest) =
      (tokens? rest).map (.leaf (.text (Text.ofChars cs)) :: ·) := by
  have ht : token? '"' ((Text.ofChars cs).flatMap (symbolChars ascii) ++ '"' :: rest) =
      some (.leaf (.text (Text.ofChars cs)), rest) := by
    have hquoted : token? '"' ((Text.ofChars cs).flatMap (symbolChars ascii) ++ '"' :: rest) =
        (quoted ((Text.ofChars cs).flatMap (symbolChars ascii) ++ '"' :: rest)).map fun r =>
          (.leaf (.text (pairSurrogates r.1)), r.2) := rfl
    rw [hquoted, quoted_symbols, Option.map_some, pairSurrogates_chars]
  have happend : textChars ascii (Text.ofChars cs) ++ rest =
      '"' :: ((Text.ofChars cs).flatMap (symbolChars ascii) ++ '"' :: rest) := by
    simp [textChars]
  rw [happend]
  exact tokens?_cons (by decide) ht (by simp; omega)

-- ---------------------------------------------------------------------------
-- Values
-- ---------------------------------------------------------------------------

/-- Documents with texts as they are, on one line or with an indent. -/
def plainStyle (indent : Option Nat) : Style := ⟨indent, false⟩

variable {style : Style} {ts : List Token} {items : List Json}
  {members : List (String × Json)}

/-- Tokens that the first pass finds in the characters of a value, and the second pass folds into
the value. -/
structure Conveys (style : Style) (v : Json) (ts : List Token) : Prop where
  cut : ∀ level rest, Boundary rest →
    tokens? (chars style level v ++ rest) = (tokens? rest).map (ts ++ ·)
  folds : ∀ stack, ts.foldlM State.take? ⟨stack, .value⟩ = some (deliver v stack)
  folds_first : ∀ stack, ts.foldlM State.take? ⟨stack, .valueOrClose⟩ = some (deliver v stack)

theorem folds_cons {s after : State} (h : s.take? t = some after) :
    (t :: ts).foldlM State.take? s = ts.foldlM State.take? after := by
  rw [List.foldlM_cons, h]
  rfl

theorem folds_append {s after : State} (h : ts.foldlM State.take? s = some after)
    (more : List Token) :
    (ts ++ more).foldlM State.take? s = more.foldlM State.take? after := by
  rw [List.foldlM_append, h]
  rfl

theorem conveys_leaf
    (h : ∀ level rest, Boundary rest →
      tokens? (chars style level v ++ rest) = (tokens? rest).map (.leaf v :: ·)) :
    Conveys style v [.leaf v] :=
  ⟨h, fun _ => rfl, fun _ => rfl⟩

theorem tokens?_break (level : Nat) (rest : List Char) :
    tokens? (style.break level ++ rest) = tokens? rest := by
  obtain ⟨indent, ascii⟩ := style
  cases indent with
  | none => rfl
  | some width =>
    have spaces (k : Nat) : tokens? (List.replicate k ' ' ++ rest) = tokens? rest := by
      induction k with
      | zero => rfl
      | succ k ih =>
        rw [List.replicate_succ, List.cons_append, tokens?_blank (.inl rfl), ih]
    have hbreak : (Style.mk (some width) ascii).break level ++ rest =
        '\n' :: (List.replicate (width * level) ' ' ++ rest) := rfl
    rw [hbreak, tokens?_blank (.inr (.inr (.inl rfl))), spaces]

theorem tokens?_mark (hc : ¬(c = ' ' ∨ c = '\t' ∨ c = '\n' ∨ c = '\r'))
    (ht : ∀ rest, token? c rest = some (t, rest)) (rest : List Char) :
    tokens? (c :: rest) = (tokens? rest).map (t :: ·) :=
  tokens?_cons hc (ht rest) (Nat.le_refl _)

theorem tokens?_separator (level : Nat) (rest : List Char) :
    tokens? (style.separator level ++ rest) =
      (tokens? rest).map (.comma :: ·) := by
  obtain ⟨indent, ascii⟩ := style
  cases indent with
  | none =>
    have happend : (Style.mk none ascii).separator level ++ rest = ',' :: ' ' :: rest := rfl
    rw [happend, tokens?_mark (by decide) (fun _ => rfl), tokens?_blank (.inl rfl)]
  | some width =>
    have happend : (Style.mk (some width) ascii).separator level ++ rest =
        ',' :: ((Style.mk (some width) ascii).break level ++ rest) := rfl
    rw [happend, tokens?_mark (by decide) (fun _ => rfl), tokens?_break]

theorem boundary_break (level : Nat) (h : Boundary rest) :
    Boundary (style.break level ++ rest) := by
  obtain ⟨indent, ascii⟩ := style
  cases indent with
  | none => exact h
  | some width => exact boundary_cons rfl rfl

theorem boundary_separator (level : Nat) :
    Boundary (style.separator level ++ rest) := by
  obtain ⟨indent, ascii⟩ := style
  cases indent <;> exact boundary_cons rfl rfl

theorem boundary_items (level : Nat) (h : Boundary rest) :
    Boundary (itemChars style level items ++ rest) := by
  cases items with
  | nil => exact h
  | cons v more =>
    rw [itemChars, List.append_assoc, List.append_assoc]
    exact boundary_separator level

theorem boundary_members (level : Nat) (h : Boundary rest) :
    Boundary (memberChars style level members ++ rest) := by
  cases members with
  | nil => exact h
  | cons member more =>
    rw [memberChars, List.append_assoc, List.append_assoc, List.append_assoc, List.append_assoc]
    exact boundary_separator level

/-- The items after the first. -/
theorem conveys_items (h : ∀ v ∈ items, ∃ ts, Conveys style v ts) : ∃ ts,
    (∀ level rest, Boundary rest →
      tokens? (itemChars style level items ++ rest) =
        (tokens? rest).map (ts ++ ·)) ∧
    ∀ done stack, ts.foldlM State.take? ⟨.items done :: stack, .commaOrClose⟩ =
      some ⟨.items (items.reverse ++ done) :: stack, .commaOrClose⟩ := by
  induction items with
  | nil => exact ⟨[], fun level rest _ => by simp [itemChars], fun done stack => rfl⟩
  | cons v more ih =>
    rw [List.forall_mem_cons] at h
    obtain ⟨ts, hv⟩ := h.1
    obtain ⟨others, hcut, hfolds⟩ := ih h.2
    refine ⟨.comma :: (ts ++ others), fun level rest hb => ?_, fun done stack => ?_⟩
    · rw [itemChars, List.append_assoc, List.append_assoc, tokens?_separator,
        hv.cut _ _ (boundary_items level hb), hcut _ _ hb, Option.map_map, Option.map_map]
      simp [Function.comp_def]
    · have hcomma : State.take? ⟨.items done :: stack, .commaOrClose⟩ .comma =
          some ⟨.items done :: stack, .value⟩ := rfl
      rw [folds_cons hcomma, folds_append (hv.folds _), deliver, hfolds]
      simp

/-- A member's name and the colon after it. -/
theorem tokens?_name (key : String) (rest : List Char) :
    tokens? (textChars style.ascii (Text.ofString key) ++ ':' :: ' ' :: rest) =
      (tokens? rest).map ([.leaf (.text (Text.ofString key)), .colon] ++ ·) := by
  rw [Text.ofString, tokens?_text, tokens?_mark (by decide) (fun _ => rfl),
    tokens?_blank (.inl rfl), Option.map_map]
  rfl

theorem folds_name {expected : Expected} (he : expected = .key ∨ expected = .keyOrClose)
    (done : List (String × Json)) (key name : String) (stack : List Frame) :
    [Token.leaf (.text (Text.ofString name)), .colon].foldlM State.take?
      ⟨.members done key :: stack, expected⟩ = some ⟨.members done name :: stack, .value⟩ := by
  have hname : [Token.leaf (.text (Text.ofString name)), .colon].foldlM State.take?
      ⟨.members done key :: stack, expected⟩ =
        some ⟨.members done (Text.ofString name).toStringLossy :: stack, .value⟩ := by
    rcases he with rfl | rfl <;> rfl
  rw [hname, Text.toStringLossy_ofString]

/-- The members after the first. -/
theorem conveys_members (h : ∀ member ∈ members, ∃ ts, Conveys style member.2 ts) : ∃ ts,
    (∀ level rest, Boundary rest →
      tokens? (memberChars style level members ++ rest) =
        (tokens? rest).map (ts ++ ·)) ∧
    ∀ done key stack, ∃ last,
      ts.foldlM State.take? ⟨.members done key :: stack, .commaOrClose⟩ =
        some ⟨.members (members.reverse ++ done) last :: stack, .commaOrClose⟩ := by
  induction members with
  | nil => exact ⟨[], fun level rest _ => by simp [memberChars], fun done key stack => ⟨key, rfl⟩⟩
  | cons member more ih =>
    obtain ⟨name, v⟩ := member
    rw [List.forall_mem_cons] at h
    obtain ⟨ts, hv⟩ : ∃ ts, Conveys style v ts := h.1
    obtain ⟨others, hcut, hfolds⟩ := ih h.2
    refine ⟨.comma :: ([Token.leaf (.text (Text.ofString name)), .colon] ++ (ts ++ others)),
      fun level rest hb => ?_, fun done key stack => ?_⟩
    · have happend : memberChars style level ((name, v) :: more) ++ rest =
          style.separator level ++ (textChars style.ascii (Text.ofString name) ++
            ':' :: ' ' :: (chars style level v ++
              (memberChars style level more ++ rest))) := by
        simp [memberChars]
      rw [happend, tokens?_separator, tokens?_name, hv.cut _ _ (boundary_members level hb),
        hcut _ _ hb, Option.map_map, Option.map_map, Option.map_map]
      simp [Function.comp_def]
    · obtain ⟨last, hlast⟩ := hfolds ((name, v) :: done) name stack
      refine ⟨last, ?_⟩
      have hcomma : State.take? ⟨.members done key :: stack, .commaOrClose⟩ .comma =
          some ⟨.members done key :: stack, .key⟩ := rfl
      rw [folds_cons hcomma, folds_append (folds_name (.inl rfl) ..), folds_append (hv.folds _),
        deliver, hlast]
      simp

theorem conveys_array (h : ∀ v ∈ items, ∃ ts, Conveys style v ts) :
    ∃ ts, Conveys style (.array items) ts := by
  cases items with
  | nil =>
    refine ⟨[.openArray, .closeArray], fun level rest hb => ?_, fun _ => rfl, fun _ => rfl⟩
    have happend : chars style level (.array []) ++ rest = '[' :: ']' :: rest := rfl
    rw [happend, tokens?_mark (by decide) (fun _ => rfl), tokens?_mark (by decide) (fun _ => rfl),
      Option.map_map]
    rfl
  | cons v more =>
    rw [List.forall_mem_cons] at h
    obtain ⟨ts, hv⟩ := h.1
    obtain ⟨others, hcut, hfolds⟩ := conveys_items h.2
    have hfold (stack : List Frame) : (ts ++ others ++ [Token.closeArray]).foldlM State.take?
        ⟨.items [] :: stack, .valueOrClose⟩ = some (deliver (.array (v :: more)) stack) := by
      have hclose : State.take? ⟨.items (more.reverse ++ [v]) :: stack, .commaOrClose⟩
          .closeArray = some (deliver (.array (more.reverse ++ [v]).reverse) stack) := rfl
      rw [List.append_assoc, folds_append (hv.folds_first _), deliver,
        folds_append (hfolds [v] stack), folds_cons hclose]
      simp
    refine ⟨.openArray :: (ts ++ others ++ [Token.closeArray]), fun level rest hb => ?_,
      fun stack => hfold stack, fun stack => hfold stack⟩
    have happend : chars style level (.array (v :: more)) ++ rest =
        '[' :: (style.break (level + 1) ++
          (chars style (level + 1) v ++
            (itemChars style (level + 1) more ++
              (style.break level ++ ']' :: rest)))) := by
      simp [chars]
    have hclose : Boundary (style.break level ++ ']' :: rest) :=
      boundary_break level (boundary_cons rfl rfl)
    rw [happend, tokens?_mark (by decide) (fun _ => rfl), tokens?_break,
      hv.cut _ _ (boundary_items _ hclose), hcut _ _ hclose, tokens?_break,
      tokens?_mark (by decide) (fun _ => rfl), Option.map_map, Option.map_map, Option.map_map]
    simp [Function.comp_def]

theorem conveys_object (h : ∀ member ∈ members, ∃ ts, Conveys style member.2 ts) :
    ∃ ts, Conveys style (.object members) ts := by
  cases members with
  | nil =>
    refine ⟨[.openObject, .closeObject], fun level rest hb => ?_, fun _ => rfl, fun _ => rfl⟩
    have happend : chars style level (.object []) ++ rest =
        '\x7b' :: '\x7d' :: rest := rfl
    rw [happend, tokens?_mark (by decide) (fun _ => rfl), tokens?_mark (by decide) (fun _ => rfl),
      Option.map_map]
    rfl
  | cons member more =>
    obtain ⟨name, v⟩ := member
    rw [List.forall_mem_cons] at h
    obtain ⟨ts, hv⟩ : ∃ ts, Conveys style v ts := h.1
    obtain ⟨others, hcut, hfolds⟩ := conveys_members h.2
    have hfold (stack : List Frame) : ([Token.leaf (.text (Text.ofString name)), .colon] ++
        (ts ++ others ++ [Token.closeObject])).foldlM State.take?
          ⟨.members [] "" :: stack, .keyOrClose⟩ =
            some (deliver (.object ((name, v) :: more)) stack) := by
      obtain ⟨last, hlast⟩ := hfolds [(name, v)] name stack
      have hclose : State.take? ⟨.members (more.reverse ++ [(name, v)]) last :: stack,
          .commaOrClose⟩ .closeObject =
            some (deliver (.object (more.reverse ++ [(name, v)]).reverse) stack) := rfl
      rw [folds_append (folds_name (.inr rfl) ..), List.append_assoc, folds_append (hv.folds _),
        deliver, folds_append hlast, folds_cons hclose]
      simp
    refine ⟨.openObject :: ([Token.leaf (.text (Text.ofString name)), .colon] ++
      (ts ++ others ++ [Token.closeObject])), fun level rest hb => ?_,
        fun stack => hfold stack, fun stack => hfold stack⟩
    have happend : chars style level (.object ((name, v) :: more)) ++ rest =
        '\x7b' :: (style.break (level + 1) ++
          (textChars style.ascii (Text.ofString name) ++ ':' :: ' ' ::
            (chars style (level + 1) v ++
              (memberChars style (level + 1) more ++
                (style.break level ++ '\x7d' :: rest))))) := by
      simp [chars]
    have hclose : Boundary (style.break level ++ '\x7d' :: rest) :=
      boundary_break level (boundary_cons rfl rfl)
    rw [happend, tokens?_mark (by decide) (fun _ => rfl), tokens?_break, tokens?_name,
      hv.cut _ _ (boundary_members _ hclose), hcut _ _ hclose, tokens?_break,
      tokens?_mark (by decide) (fun _ => rfl), Option.map_map, Option.map_map, Option.map_map,
      Option.map_map]
    simp [Function.comp_def]

/-- Every legible value is conveyed by its characters. -/
theorem Legible.conveys (h : Legible v) : ∃ ts, Conveys style v ts := by
  induction h with
  | null => exact ⟨_, conveys_leaf fun level rest hb => tokens?_word (List.all_eq_true.mp rfl) rfl hb⟩
  | bool b =>
    cases b
    · exact ⟨_, conveys_leaf fun level rest hb => tokens?_word (List.all_eq_true.mp rfl) rfl hb⟩
    · exact ⟨_, conveys_leaf fun level rest hb => tokens?_word (List.all_eq_true.mp rfl) rfl hb⟩
  | int i => exact ⟨_, conveys_leaf fun level rest hb => tokens?_spelled (spells_int i) hb⟩
  | float hx => exact ⟨_, conveys_leaf fun level rest hb => tokens?_spelled (spells_float hx) hb⟩
  | text cs => exact ⟨_, conveys_leaf fun level rest hb => tokens?_text style.ascii cs rest⟩
  | array _ ih => exact conveys_array ih
  | object _ ih => exact conveys_object ih

-- ---------------------------------------------------------------------------
-- Several documents
-- ---------------------------------------------------------------------------

theorem take?_nothing (t : Token) (stack : List Frame) (w : Json) :
    State.take? ⟨stack, .nothing w⟩ t = none := by
  cases t <;> rfl

/-- Tokens that make one value make it among others, too. -/
theorem folds_next {s : State} (hs : ∀ w, s.expected ≠ .nothing w)
    (h : ts.foldlM State.take? s = some ⟨[], .nothing v⟩) (done : List Json) :
    ts.foldlM State.next? (done, s) = some (v :: done, ⟨[], .value⟩) := by
  induction ts generalizing s with
  | nil =>
    cases h
    exact absurd rfl (hs v)
  | cons t ts ih =>
    rw [List.foldlM_cons] at h ⊢
    obtain ⟨after, hafter, hrest⟩ := Option.bind_eq_some_iff.mp h
    have hnext : State.next? (done, s) t = some (after.joined done) := by
      rw [State.next?, hafter]
      rfl
    rw [hnext, Option.bind_eq_bind, Option.bind_some]
    by_cases hn : ∃ w, after.expected = .nothing w
    · -- The value is complete, so that no token is left.
      obtain ⟨w, hw⟩ := hn
      obtain ⟨stack, expected⟩ := after
      obtain rfl : expected = .nothing w := hw
      cases ts with
      | nil =>
        cases hrest
        rfl
      | cons u ts =>
        rw [List.foldlM_cons, take?_nothing] at hrest
        cases hrest
    · have hopen : ∀ w, after.expected ≠ .nothing w := fun w hw => hn ⟨w, hw⟩
      have hkeep : after.joined done = (done, after) := by
        unfold State.joined
        split
        · rename_i w hw
          exact absurd hw (hopen w)
        · rfl
      rw [hkeep]
      exact ih hopen hrest

/-- Legible documents in a row are read as the values that they were written for. -/
theorem documents?_chars (style : Style) {values : List Json} (h : ∀ v ∈ values, Legible v) :
    documents? (String.ofList (values.flatMap fun v => chars style 0 v ++ ['\n'])) =
      some values := by
  have all (done : List Json) :
      (tokens? (values.flatMap fun v => chars style 0 v ++ ['\n'])).bind
          (List.foldlM State.next? (done, ⟨[], .value⟩) ·) =
        some (values.reverse ++ done, ⟨[], .value⟩) := by
    induction values generalizing done with
    | nil =>
      rw [List.flatMap_nil, tokens?]
      rfl
    | cons v values ih =>
      rw [List.forall_mem_cons] at h
      obtain ⟨ts, hv⟩ : ∃ ts, Conveys style v ts := h.1.conveys
      have hend (rest : List Char) : Boundary ('\n' :: rest) := boundary_cons rfl rfl
      rw [List.flatMap_cons, List.append_assoc, List.singleton_append, hv.cut _ _ (hend _),
        tokens?_blank (.inr (.inr (.inl rfl))), Option.bind_map]
      have hfirst := folds_next (fun w hw => by cases hw) (hv.folds []) done
      have hfold (more : List Token) : (ts ++ more).foldlM State.next? (done, ⟨[], .value⟩) =
          more.foldlM State.next? (v :: done, ⟨[], .value⟩) := by
        rw [List.foldlM_append, hfirst]
        rfl
      simp only [Function.comp_def, hfold]
      rw [ih h.2, List.reverse_cons, List.append_assoc]
      rfl
  rw [documents?, String.toList_ofList]
  have hall := all []
  obtain ⟨tokens, ht, hfold⟩ := Option.bind_eq_some_iff.mp hall
  rw [ht, Option.bind_eq_bind, Option.bind_some, hfold]
  simp

/-- Legible values are told apart by their documents. -/
theorem render_inj (style : Style) {w : Json} (hv : Legible v) (hw : Legible w)
    (h : render style v = render style w) : v = w := by
  have read {v : Json} (hv : Legible v) :
      documents? (render style v ++ "\n") = some [v] := by
    have hread := documents?_chars style (List.forall_mem_singleton.mpr hv)
    rwa [List.flatMap_singleton, String.ofList_append] at hread
  have hboth := read hv
  rw [h, read hw] at hboth
  cases hboth
  rfl

end Treewire.Json
