import Treewire.Proofs.Sameness

/-!
# Listings tell messages apart

Each line of a listing is read from its start: the indent says how deep it is, the name reaches up
to the first character that names do not have, and what comes next says whether a leaf or a message
follows. A leaf stays within its line, since line breaks are escaped, and it is given by its text:
escapes are read back one by one, numbers as in documents, and no name of an enumeration looks like
a number. So two listings that go on equally are equal up to any point (`listsAll`), and
`listing_iff_agrees` follows.
-/

namespace Treewire

-- ---------------------------------------------------------------------------
-- Names
-- ---------------------------------------------------------------------------

/-- What names are written with. -/
def isNameChar (c : Char) : Bool := c.isAlphanum || c == '_'

/-- Whether a name begins with a letter, so that it is not taken for a number. -/
def isName : List Char → Bool
  | [] => false
  | c :: cs => c.isAlpha && cs.all isNameChar

theorem nameChar_of_isName {cs : List Char} (h : isName cs = true) :
    ∀ c ∈ cs, isNameChar c = true := by
  cases cs with
  | nil => cases h
  | cons c cs =>
    rw [isName, Bool.and_eq_true, List.all_eq_true] at h
    refine List.forall_mem_cons.mpr ⟨?_, h.2⟩
    rw [isNameChar, Char.isAlphanum, h.1, Bool.true_or, Bool.true_or]

/-- Whether all names of fields and of enumerated values can be told from what surrounds them. -/
structure Schema.Named (s : Schema) : Prop where
  fields : ∀ t ∈ s.messages, ∀ f ∈ t.fields, isName f.name.toList = true
  values : ∀ e ∈ s.enums, ∀ v ∈ e.values, isName v.1.toList = true

namespace Message

variable {s : Schema} {t : MessageType} {f : Field} {m n : Message} {v w : Value} {c : Char}
  {cs ds rest rest' : List Char}

/-- What comes first and does not hold a mark ends where the mark stands. -/
theorem split_at_mark {p : Char → Bool} (hc : ∀ c ∈ cs, p c = true) (hd : ∀ c ∈ ds, p c = true)
    (hr : ∀ c, rest.head? = some c → p c = false) (hr' : ∀ c, rest'.head? = some c → p c = false)
    (h : cs ++ rest = ds ++ rest') : cs = ds ∧ rest = rest' := by
  obtain ⟨htake, hdrop⟩ := Json.span_kind rest hc hr
  obtain ⟨htake', hdrop'⟩ := Json.span_kind rest' hd hr'
  rw [h] at htake hdrop
  exact ⟨htake.symm.trans htake', hdrop.symm.trans hdrop'⟩

-- ---------------------------------------------------------------------------
-- Texts
-- ---------------------------------------------------------------------------

/-- The character that a letter after a backslash stands for. -/
def escaped? : Char → Option Char
  | 't' => some '\t'
  | 'n' => some '\n'
  | 'r' => some '\r'
  | '"' => some '"'
  | '\'' => some '\''
  | '\\' => some '\\'
  | _ => none

/-- The character that an octal digit, two more and what follows them stand for. -/
def octal? (a : Char) : List Char → Option (Char × List Char)
  | b :: d :: rest =>
    some (Char.ofNat ((a.toNat - 48) * 64 + (b.toNat - 48) * 8 + (d.toNat - 48)), rest)
  | _ => none

/-- The first character of an escaped text, and what follows it. -/
def unescape? : List Char → Option (Char × List Char)
  | [] => none
  | '\\' :: [] => none
  | '\\' :: a :: rest =>
    match escaped? a with
    | some c => some (c, rest)
    | none => octal? a rest
  | c :: rest => some (c, rest)

theorem unescape?_octal {k : Nat} (h : k < 0x80) (rest : List Char) :
    unescape? (octal k ++ rest) = some (Char.ofNat k, rest) := by
  have all : ∀ k : Fin 0x80, escaped? (Nat.digitChar (k.val / 64 % 8)) = none ∧
      ((Nat.digitChar (k.val / 64 % 8)).toNat - 48) * 64 +
        ((Nat.digitChar (k.val / 8 % 8)).toNat - 48) * 8 +
        ((Nat.digitChar (k.val % 8)).toNat - 48) = k.val := by
    decide
  obtain ⟨hnone, hvalue⟩ := all ⟨k, h⟩
  rw [octal, List.cons_append, List.cons_append, List.cons_append, List.cons_append,
    List.nil_append, unescape?, hnone]
  exact congrArg (fun k => some (Char.ofNat k, rest)) hvalue

/-- A character is read from its escape. -/
theorem unescape?_textEscape (c : Char) (rest : List Char) :
    unescape? (textEscape c ++ rest) = some (c, rest) := by
  unfold textEscape namedEscape?
  split
  iterate 6 rfl
  rename_i hbackslash
  rw [Option.getD_none]
  split
  · have hlow : c.toNat < 0x80 := by omega
    rw [unescape?_octal hlow, Char.ofNat_toNat]
  · rw [List.singleton_append, unescape?]
    · rintro rfl
      exact absurd rfl hbackslash
    · rintro a more rfl
      exact absurd rfl hbackslash

theorem textEscape_inj (h : cs.flatMap textEscape = ds.flatMap textEscape) : cs = ds := by
  induction cs generalizing ds with
  | nil =>
    cases ds with
    | nil => rfl
    | cons d ds =>
      have hread := unescape?_textEscape d (ds.flatMap textEscape)
      rw [← List.flatMap_cons, ← h] at hread
      cases hread
  | cons c cs ih =>
    have hread := unescape?_textEscape c (cs.flatMap textEscape)
    rw [← List.flatMap_cons, h] at hread
    cases ds with
    | nil => cases hread
    | cons d ds =>
      rw [List.flatMap_cons, unescape?_textEscape] at hread
      obtain ⟨hc, hrest⟩ := Prod.mk.inj (Option.some.inj hread)
      rw [hc, ih hrest.symm]

/-- Line breaks are escaped. -/
theorem textEscape_line (c : Char) : '\n' ∉ textEscape c := by
  unfold textEscape namedEscape?
  split
  iterate 6 decide
  rename_i hbreak _ _ _ _
  rw [Option.getD_none]
  split
  · rename_i hc
    have all : ∀ k : Fin 0x80, '\n' ∉ octal k.val := by decide
    exact all ⟨c.toNat, by omega⟩
  · rw [List.mem_singleton]
    exact fun h => hbreak h.symm

-- ---------------------------------------------------------------------------
-- Leaves
-- ---------------------------------------------------------------------------

theorem figures_line (h : Json.Figures cs) : '\n' ∉ cs := fun hm => absurd (h _ hm) (by decide)

/-- A number is listed by its digits, or by its name. -/
theorem shortest_cases (x : Binary64) :
    Json.Spells (DecimalLayout.report.shortest x).toList (.float x) ∨
      (x.value = .nan ∧ DecimalLayout.report.shortest x = "nan") ∨
      ∃ negative, x.value = .infinite negative ∧
        DecimalLayout.report.shortest x = if negative then "-inf" else "inf" := by
  cases hx : x.value with
  | finite negative m e =>
    have hspells := Json.spells_float hx
    rw [Json.floatText, hx] at hspells
    exact .inl hspells
  | infinite negative =>
    refine .inr (.inr ⟨negative, rfl, ?_⟩)
    rw [DecimalLayout.shortest, hx]
    cases negative <;> rfl
  | nan =>
    refine .inr (.inl ⟨rfl, ?_⟩)
    rw [DecimalLayout.shortest, hx]
    rfl

theorem number?_of_name (h : cs = "nan".toList ∨ cs = "-inf".toList ∨ cs = "inf".toList) :
    Json.number? cs = none := by
  rcases h with rfl | rfl | rfl <;> rfl

/-- The digits of a number are not the name of another. -/
theorem not_spells_name {x : Binary64} {text : String} (hx : Json.Spells text.toList (.float x))
    (h : text = "nan" ∨ ∃ negative : Bool, text = if negative then "-inf" else "inf") : False := by
  have hname : text.toList = "nan".toList ∨ text.toList = "-inf".toList ∨
      text.toList = "inf".toList := by
    rcases h with rfl | ⟨negative, rfl⟩
    · exact .inl rfl
    · cases negative
      · exact .inr (.inr rfl)
      · exact .inr (.inl rfl)
  cases hx.reads.symm.trans (number?_of_name hname)

theorem leveled_of_shortest {x y : Binary64}
    (h : DecimalLayout.report.shortest x = DecimalLayout.report.shortest y) :
    x.leveled = y.leveled := by
  rcases shortest_cases x with hx | ⟨hx, hxt⟩ | ⟨negative, hx, hxt⟩ <;>
    rcases shortest_cases y with hy | ⟨hy, hyt⟩ | ⟨negative', hy, hyt⟩
  · have hread := hx.reads
    rw [h, hy.reads] at hread
    cases hread
    rfl
  · exact (not_spells_name hx (.inl (h.trans hyt))).elim
  · exact (not_spells_name hx (.inr ⟨_, h.trans hyt⟩)).elim
  · exact (not_spells_name hy (.inl (h.symm.trans hxt))).elim
  · rw [Binary64.leveled_of_nan hx, Binary64.leveled_of_nan hy]
  · rw [hxt, hyt] at h
    cases negative' <;> exact absurd h (by decide)
  · exact (not_spells_name hy (.inr ⟨_, h.symm.trans hxt⟩)).elim
  · rw [hxt, hyt] at h
    cases negative <;> exact absurd h (by decide)
  · have hsign : negative = negative' := by
      rw [hxt, hyt] at h
      cases negative <;> cases negative' <;> first | rfl | exact absurd h (by decide)
    subst hsign
    rw [Binary64.eq_of_infinite hx hy]

/-- A value of an enumeration is listed by a name, or by its number. -/
theorem choice_cases (hn : s.Named) (name : String) (i : Int) :
    (∃ e ∈ s.enums, s.enum? name = some e ∧ ∃ value, e.nameOf? i = some value ∧
      leafText s (.enum name) (.int i) = value.toList ∧ isName value.toList = true) ∨
    leafText s (.enum name) (.int i) = (toString i).toList := by
  rw [leafText]
  cases hi : (s.enum? name).bind (·.nameOf? i) with
  | none => exact .inr rfl
  | some value =>
    obtain ⟨e, he, hvalue⟩ := Option.bind_eq_some_iff.mp hi
    have hmem := Script.enum?_mem he
    exact .inl ⟨e, hmem, he, value, hvalue, rfl,
      hn.values e hmem _ (Script.mem_of_nameOf? hvalue)⟩

theorem not_isName_number (i : Int) : isName (toString i).toList = false := by
  obtain ⟨c, more, heq, hc⟩ := Json.head_of_number? (Json.spells_int i).reads
  have halpha : c.isAlpha = false := by
    rcases hc with rfl | hc
    · rfl
    · exact Json.isAlpha_of_isDigit hc
  rw [heq, isName, halpha, Bool.false_and]

theorem choice_of_leafText (hs : s.Regular) (hn : s.Named) {name : String} {i j : Int}
    (h : leafText s (.enum name) (.int i) = leafText s (.enum name) (.int j)) : i = j := by
  rcases choice_cases hn name i with ⟨e, hmem, he, value, hi, hit, hname⟩ | hit <;>
    rcases choice_cases hn name j with ⟨e', -, he', value', hj, hjt, hname'⟩ | hjt <;>
      rw [hit, hjt] at h
  · cases he.symm.trans he'
    obtain rfl := String.toList_inj.mp h
    exact nameOf?_inj (hs.enums e hmem) hi hj
  · rw [h, not_isName_number] at hname
    cases hname
  · rw [← h, not_isName_number] at hname'
    cases hname'
  · exact toString_inj (String.toList_inj.mp h)

/-- A leaf has a line of its own. -/
theorem leafText_line (hn : s.Named) {kind : FieldKind} (h : Typed s kind v)
    (hm : ∀ m, v ≠ .message m) : '\n' ∉ leafText s kind v := by
  cases h with
  | @bool b =>
    rw [leafText]
    cases b <;> decide
  | string =>
    rw [leafText, quote, List.cons_append, List.mem_cons, List.mem_append, List.mem_flatMap]
    rintro (h | ⟨c, -, hc⟩ | h)
    · cases h
    · exact textEscape_line c hc
    · rw [List.mem_singleton] at h
      cases h
  | @double x =>
    rw [leafText]
    rcases shortest_cases x with hx | ⟨-, hx⟩ | ⟨negative, -, hx⟩
    · exact figures_line hx.figures
    · rw [hx]
      decide
    · rw [hx]
      cases negative <;> decide
  | @int64 i => exact figures_line (Json.spells_int i).figures
  | @enum name i =>
    rcases choice_cases hn name i with ⟨e, -, -, value, -, htext, hname⟩ | htext
    · rw [htext]
      exact fun h => absurd (nameChar_of_isName hname _ h) (by decide)
    · rw [htext]
      exact figures_line (Json.spells_int i).figures
  | message => exact absurd rfl (hm _)

/-- The text of a leaf says which it is. -/
theorem leveled_of_leafText (hs : s.Regular) (hn : s.Named) {kind : FieldKind}
    (hv : Typed s kind v) (hw : Typed s kind w) (hm : ∀ m, v ≠ .message m)
    (h : leafText s kind v = leafText s kind w) : v.leveled = w.leveled := by
  cases hv with
  | bool =>
    cases hw
    rename_i b b'
    rw [leafText, leafText] at h
    cases b <;> cases b' <;> first | rfl | exact absurd h (by decide)
  | string =>
    cases hw
    have hquoted := List.append_inj_left' (List.cons.inj h).2 rfl
    rw [String.toList_inj.mp (textEscape_inj hquoted)]
  | double =>
    cases hw
    exact congrArg Value.double (leveled_of_shortest (String.toList_inj.mp h))
  | int64 =>
    cases hw
    rw [toString_inj (String.toList_inj.mp h)]
  | enum =>
    cases hw
    rw [choice_of_leafText hs hn h]
  | message => exact absurd rfl (hm _)

-- ---------------------------------------------------------------------------
-- Lines
-- ---------------------------------------------------------------------------

/-- What stands behind the lines of a message: nothing, or the brace that closes it. -/
inductive Closes : Nat → List Char → Prop
  | all : Closes 0 []
  | brace : Closes (k + 1) (List.replicate (2 * k) ' ' ++ '\x7d' :: more)

/-- No line of the message itself comes there. -/
theorem Closes.not_indented {level : Nat} (h : Closes level rest) (c : Char) (more : List Char) :
    rest ≠ List.replicate (2 * level) ' ' ++ c :: more := by
  cases h with
  | all => simp
  | @brace k more =>
    intro heq
    have hindent : List.replicate (2 * (k + 1)) ' ' = List.replicate (2 * k) ' ' ++ [' ', ' '] :=
      List.replicate_add ..
    rw [hindent, List.append_assoc] at heq
    cases List.append_cancel_left heq

/-- Whether a message can be told from its lines wherever they stand, and whatever follows. -/
def ListsAll (s : Schema) (m : Message) : Prop :=
  ∀ (n : Message) t level rest rest', t ∈ s.messages → m.Instance s t → n.Instance s t →
    Closes level rest → Closes level rest' →
      messageChars s t level m ++ rest = messageChars s t level n ++ rest' →
        m.leveled = n.leveled ∧ rest = rest'

theorem valueChars_leaf {level : Nat} (hm : ∀ m, v ≠ .message m) :
    valueChars s f level v = ':' :: ' ' :: leafText s f.kind v := by
  cases v with
  | message m => exact absurd rfl (hm m)
  | _ => rfl

theorem valueChars_message {level : Nat} {name : String} {type : MessageType} {sub : Message}
    (hk : f.kind = .message name) (htype : s.message? name = some type) (rest : List Char) :
    valueChars s f level (.message sub) ++ '\n' :: rest =
      ' ' :: '\x7b' :: '\n' :: (messageChars s type (level + 1) sub ++
        (List.replicate (2 * level) ' ' ++ '\x7d' :: '\n' :: rest)) := by
  simp [valueChars, typeOf?, hk, htype]

/-- A name ends where its value begins. -/
theorem head_valueChars (level : Nat) (rest : List Char) :
    ∀ c, (valueChars s f level v ++ rest).head? = some c → isNameChar c = false := by
  intro c hc
  cases v with
  | message m =>
    cases hc
    rfl
  | _ =>
    rw [valueChars_leaf (by simp)] at hc
    cases hc
    rfl

theorem leveled_of_leafLine (hs : s.Regular) (hn : s.Named) {kind : FieldKind}
    (hv : Typed s kind v) (hw : Typed s kind w) (hm : ∀ m, v ≠ .message m)
    (hm' : ∀ m, w ≠ .message m)
    (h : leafText s kind v ++ '\n' :: rest = leafText s kind w ++ '\n' :: rest') :
    v.leveled = w.leveled ∧ rest = rest' := by
  have within {v : Value} (hv : Typed s kind v) (hm : ∀ m, v ≠ .message m) :
      ∀ c ∈ leafText s kind v, (c != '\n') = true := by
    intro c hc
    rw [bne_iff_ne]
    rintro rfl
    exact leafText_line hn hv hm hc
  have hend (rest : List Char) : ∀ c, ('\n' :: rest).head? = some c → (c != '\n') = false := by
    rintro c ⟨⟩
    rfl
  obtain ⟨htext, hrest⟩ := split_at_mark (within hv hm) (within hw hm') (hend rest) (hend rest') h
  exact ⟨leveled_of_leafText hs hn hv hw hm htext, (List.cons.inj hrest).2⟩

/-- A value that is followed by a line break can be told from what stands there. -/
theorem leveled_of_valueChars (hs : s.Regular) (hn : s.Named) {level : Nat} (ht : t ∈ s.messages)
    (hf : f ∈ t.fields) (hv : Suits s f v) (hw : Suits s f w)
    (ih : ∀ sub, v = .message sub → ListsAll s sub)
    (h : valueChars s f level v ++ '\n' :: rest = valueChars s f level w ++ '\n' :: rest') :
    v.leveled = w.leveled ∧ rest = rest' := by
  have hplain := (hs.messages t ht).plain f hf
  have htyped := typed_of_fits hplain hv.fits
  have htyped' := typed_of_fits hplain hw.fits
  by_cases hm : ∃ sub, v = .message sub
  · obtain ⟨sub, rfl⟩ := hm
    obtain ⟨name, type, hk, htype, -⟩ := hv.fits
    rw [hk] at htyped'
    cases htyped' with
    | @message _ _ other _ =>
      rw [valueChars_message hk htype, valueChars_message hk htype] at h
      obtain ⟨-, h⟩ := List.cons.inj h
      obtain ⟨-, h⟩ := List.cons.inj h
      obtain ⟨-, h⟩ := List.cons.inj h
      obtain ⟨hsub, hrest⟩ := ih sub rfl other type (level + 1) _ _ (Script.message?_mem htype)
        (hv.nested hk htype) (hw.nested hk htype) .brace .brace h
      have hrest := (List.cons.inj (List.append_cancel_left hrest)).2
      exact ⟨congrArg Value.message hsub, (List.cons.inj hrest).2⟩
  · have hleaf : ∀ sub, v ≠ .message sub := fun sub heq => hm ⟨sub, heq⟩
    have hleaf' : ∀ sub, w ≠ .message sub := by
      rintro sub rfl
      obtain ⟨name, type, hk, -⟩ := hw.fits
      rw [hk] at htyped
      cases htyped
      exact hleaf _ rfl
    rw [valueChars_leaf hleaf, valueChars_leaf hleaf'] at h
    obtain ⟨-, h⟩ := List.cons.inj h
    obtain ⟨-, h⟩ := List.cons.inj h
    exact leveled_of_leafLine hs hn htyped htyped' hleaf hleaf' h

/-- The line of an entry, and what comes after. -/
theorem messageChars_entry {number : Nat} {more : Message} (hr : t.Regular)
    (hm : (Message.entry number v more).Instance s t) :
    ∃ f ∈ t.fields, f.number = number ∧ Suits s f v ∧ more.Instance s t ∧
      ∀ level, messageChars s t level (.entry number v more) =
        List.replicate (2 * level) ' ' ++ (f.name.toList ++
          (valueChars s f level v ++ '\n' :: messageChars s t level more)) := by
  obtain ⟨⟨⟨f, hf, hv⟩, -, -, hfits⟩, hset, hpresent⟩ := hm
  obtain ⟨hmem, hn⟩ := (Script.field?_eq_some hr).mp hf
  obtain ⟨hkept, hp⟩ := hset f hf
  refine ⟨f, hmem, hn, ⟨hv, hp, hkept⟩, ⟨hfits, hpresent⟩, fun level => ?_⟩
  have hgroup : isGroup t f = false := by
    have hplain := hr.plain f hmem
    unfold isGroup
    split
    · rename_i hk
      rw [hk] at hplain
      cases hplain
    · rfl
  have hlisted : listedName t f = f.name.toList := by
    simp [listedName, (hr.valid f hmem).2, hgroup]
  simp [messageChars, hf, hkept, hlisted]

/-- A line of a message is not what closes the message. -/
theorem Closes.not_entry {level number : Nat} {more : Message} (hs : s.Regular) (hn : s.Named)
    (ht : t ∈ s.messages) (hm : (Message.entry number v more).Instance s t) (h : Closes level rest)
    (heq : rest = messageChars s t level (.entry number v more) ++ rest') : False := by
  obtain ⟨f, hf, -, -, -, hchars⟩ := messageChars_entry (hs.messages t ht) hm
  have hname := hn.fields t ht f hf
  rw [hchars] at heq
  cases hcs : f.name.toList with
  | nil =>
    rw [hcs] at hname
    cases hname
  | cons c cs =>
    rw [hcs, List.append_assoc, List.append_assoc, List.cons_append] at heq
    exact h.not_indented _ _ heq

theorem listsAll (hs : s.Regular) (hn : s.Named) (m : Message) : ListsAll s m := by
  induction m using deep_induction with
  | empty =>
    intro n t level rest rest' ht hm hn' hr hr' h
    cases n with
    | empty => exact ⟨rfl, h⟩
    | entry number w more => exact (hr.not_entry hs hn ht hn' h).elim
  | entry number v more hv ih =>
    intro n t level rest rest' ht hm hn' hr hr' h
    cases n with
    | empty => exact (hr'.not_entry hs hn ht hm h.symm).elim
    | entry number' w more' =>
      have ht' := hs.messages t ht
      obtain ⟨f, hf, rfl, hvs, hmore, hchars⟩ := messageChars_entry ht' hm
      obtain ⟨g, hg, rfl, hws, hmore', hchars'⟩ := messageChars_entry ht' hn'
      simp only [hchars, hchars', List.append_assoc, List.cons_append] at h
      obtain ⟨hname, h⟩ := split_at_mark (nameChar_of_isName (hn.fields t ht f hf))
        (nameChar_of_isName (hn.fields t ht g hg)) (head_valueChars level _)
        (head_valueChars level _) (List.append_cancel_left h)
      have hkey : f.key = g.key := by rw [Field.key, Field.key, String.toList_inj.mp hname]
      obtain rfl := Script.key_inj ht' hf hg hkey
      obtain ⟨hvalue, h⟩ := leveled_of_valueChars hs hn ht hf hvs hws hv h
      obtain ⟨hrest, h⟩ := ih more' t level rest rest' ht hmore hmore' hr hr' h
      exact ⟨by rw [leveled, leveled, hvalue, hrest], h⟩

/-- The listings of two values of a type are equal exactly if these agree. -/
theorem listing_iff_agrees (hs : s.Regular) (hnamed : s.Named) (ht : t ∈ s.messages)
    (hm : m.Instance s t) (hn : n.Instance s t) :
    m.listing s t = n.listing s t ↔ m.Agrees s t n := by
  constructor
  · intro h
    have hchars := congrArg (· ++ []) (String.ofList_injective h)
    exact (agrees_iff_leveled hs ht hm hn).mpr
      (listsAll hs hnamed m n t 0 [] [] ht hm hn .all .all hchars).1
  · exact fun h => h.listing_eq hs ht hm hn

end Message

end Treewire
