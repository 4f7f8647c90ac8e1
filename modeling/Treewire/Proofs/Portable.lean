import Treewire.Proofs.Views

/-!
# Documents for every reader

What a JSON document is, said without a reader (`Json.IsElement`), and that the document of a tree
is one: it is printable ASCII, its objects name no member twice, and whatever its indent, it is read
as the data of the tree (`document_portable`).
-/

namespace Treewire

namespace Json

-- ---------------------------------------------------------------------------
-- The grammar of documents
-- ---------------------------------------------------------------------------

def Blank (cs : List Char) : Prop := ∀ c ∈ cs, c = ' ' ∨ c = '\t' ∨ c = '\n' ∨ c = '\r'

inductive IsFraction : List Char → Prop
  | none : IsFraction []
  | point (hd : Digits digits) (hn : digits ≠ []) : IsFraction ('.' :: digits)

inductive IsPower : List Char → Prop
  | none : IsPower []
  | signed (he : e = 'e' ∨ e = 'E') (hs : sign ∈ [[], ['+'], ['-']]) (hd : Digits digits)
      (hn : digits ≠ []) : IsPower (e :: (sign ++ digits))

inductive IsUnsigned : List Char → Prop
  | mk {whole fraction power : List Char} (hw : IsWhole whole) (hf : IsFraction fraction)
      (hp : IsPower power) : IsUnsigned (whole ++ (fraction ++ power))

inductive IsNumeral : List Char → Prop
  | positive (h : IsUnsigned cs) : IsNumeral cs
  | negative (h : IsUnsigned cs) : IsNumeral ('-' :: cs)

/-- What stands between quotes: characters that need no escape, and escapes. -/
inductive IsQuoted : List Char → Prop
  | nil : IsQuoted []
  | plain (hq : c ≠ '"') (hb : c ≠ '\\') (hc : 0x20 ≤ c.toNat) (hr : IsQuoted rest) :
      IsQuoted (c :: rest)
  | simple (hc : c ∈ ['"', '\\', '/', 'b', 'f', 'n', 'r', 't']) (hr : IsQuoted rest) :
      IsQuoted ('\\' :: c :: rest)
  | code (hh : ∀ h ∈ [a, b, c, d], h ∈ "0123456789abcdefABCDEF".toList) (hr : IsQuoted rest) :
      IsQuoted ('\\' :: 'u' :: a :: b :: c :: d :: rest)

inductive IsText : List Char → Prop
  | mk (h : IsQuoted cs) : IsText ('"' :: (cs ++ ['"']))

mutual
inductive IsValue : List Char → Prop
  | null : IsValue "null".toList
  | true : IsValue "true".toList
  | false : IsValue "false".toList
  | number (h : IsNumeral cs) : IsValue cs
  | text (h : IsText cs) : IsValue cs
  | emptyArray (h : Blank cs) : IsValue ('[' :: (cs ++ [']']))
  | array (h : IsItems cs) : IsValue ('[' :: (cs ++ [']']))
  | emptyObject (h : Blank cs) : IsValue ('\x7b' :: (cs ++ ['\x7d']))
  | object (h : IsMembers cs) : IsValue ('\x7b' :: (cs ++ ['\x7d']))
/-- A value with blanks around it, such as a whole document. -/
inductive IsElement : List Char → Prop
  | mk {before cs after : List Char} (hb : Blank before) (h : IsValue cs) (ha : Blank after) :
      IsElement (before ++ (cs ++ after))
inductive IsItems : List Char → Prop
  | last (h : IsElement cs) : IsItems cs
  | more (h : IsElement cs) (hr : IsItems rest) : IsItems (cs ++ ',' :: rest)
inductive IsMembers : List Char → Prop
  | last {before key after cs : List Char} (hb : Blank before) (hk : IsText key)
      (ha : Blank after) (h : IsElement cs) : IsMembers (before ++ (key ++ (after ++ ':' :: cs)))
  | more {before key after cs : List Char} (hb : Blank before) (hk : IsText key)
      (ha : Blank after) (h : IsElement cs) (hr : IsMembers rest) :
      IsMembers (before ++ (key ++ (after ++ ':' :: (cs ++ ',' :: rest))))
end

variable {cs : List Char} {v : Json} {style : Style} {indent : Option Nat}

-- ---------------------------------------------------------------------------
-- Numbers
-- ---------------------------------------------------------------------------

theorem digits_takeWhile (cs : List Char) : Digits (cs.takeWhile Char.isDigit) :=
  List.all_eq_true.mp List.all_takeWhile

theorem isPower_of_exponent? {power : Int} (he : e = 'e' ∨ e = 'E')
    (h : exponent? cs = some power) : IsPower (e :: cs) := by
  have plain (sign : List Char) {digits : List Char} (hs : sign ∈ [[], ['+'], ['-']])
      (hg : ¬(digits.isEmpty = true ∨ (digits.any fun c => !c.isDigit) = true)) :
      IsPower (e :: (sign ++ digits)) := by
    rw [not_or, List.isEmpty_iff] at hg
    refine .signed he hs (fun c hc => ?_) hg.1
    by_contra hdigit
    exact hg.2 (List.any_eq_true.mpr ⟨c, hc, by simpa using hdigit⟩)
  unfold exponent? at h
  dsimp only at h
  split at h
  · obtain ⟨n, hn, -⟩ := Option.map_eq_some_iff.mp h
    exact plain ['-'] (by simp) fun hg => by rw [if_pos hg] at hn; cases hn
  · obtain ⟨n, hn, -⟩ := Option.map_eq_some_iff.mp h
    exact plain ['+'] (by simp) fun hg => by rw [if_pos hg] at hn; cases hn
  · obtain ⟨n, hn, -⟩ := Option.map_eq_some_iff.mp h
    exact plain [] (by simp) fun hg => by rw [if_pos hg] at hn; cases hn

theorem isPower_of_power? {power : Int} (h : power? cs = some power) : IsPower cs := by
  cases cs with
  | nil => exact .none
  | cons e rest =>
    obtain ⟨he, h⟩ := Option.ite_none_right_eq_some.mp h
    exact isPower_of_exponent? he h

theorem isUnsigned_of_unsigned? (h : unsigned? negative cs = some v) : IsUnsigned cs := by
  unfold unsigned? at h
  dsimp only at h
  split at h
  · cases h
  rename_i hguard
  have hwhole : IsWhole (cs.takeWhile Char.isDigit) := by
    rw [not_or, not_and, List.isEmpty_iff] at hguard
    exact ⟨digits_takeWhile cs, hguard.1, hguard.2⟩
  have hcs := List.takeWhile_append_dropWhile (p := Char.isDigit) (l := cs)
  split at h
  · rename_i hrest
    rw [hrest] at hcs
    rw [← hcs]
    exact .mk hwhole .none .none
  · rename_i c after hrest
    rw [hrest] at hcs
    rw [← hcs]
    by_cases hc : c = '.'
    · subst hc
      simp only [if_true, true_and] at h
      obtain ⟨hfraction, h⟩ := Option.ite_none_left_eq_some.mp h
      obtain ⟨power, hpower, -⟩ := Option.map_eq_some_iff.mp h
      have hpoint : IsFraction ('.' :: after.takeWhile Char.isDigit) :=
        .point (digits_takeWhile after) (by rwa [List.isEmpty_iff] at hfraction)
      have hunsigned := IsUnsigned.mk hwhole hpoint (isPower_of_power? hpower)
      rwa [List.cons_append, List.takeWhile_append_dropWhile] at hunsigned
    · simp only [hc, if_false, false_and] at h
      obtain ⟨power, hpower, -⟩ := Option.map_eq_some_iff.mp h
      rw [hrest] at hpower
      exact .mk hwhole .none (isPower_of_power? hpower)

/-- What is read as a number is one. -/
theorem isNumeral_of_number? (h : number? cs = some v) : IsNumeral cs := by
  unfold number? at h
  split at h
  · exact .negative (isUnsigned_of_unsigned? h)
  · exact .positive (isUnsigned_of_unsigned? h)

-- ---------------------------------------------------------------------------
-- Texts
-- ---------------------------------------------------------------------------

theorem IsQuoted.append {rest : List Char} (h : IsQuoted cs) (h' : IsQuoted rest) :
    IsQuoted (cs ++ rest) := by
  induction h with
  | nil => exact h'
  | plain hq hb hc _ ih => exact .plain hq hb hc ih
  | simple hc _ ih => exact .simple hc ih
  | code hh _ ih => exact .code hh ih

theorem hexDigit_mem (n : Nat) : hexDigit n ∈ "0123456789abcdefABCDEF".toList := by
  have all : ∀ k < 16, Nat.digitChar k ∈ "0123456789abcdefABCDEF".toList := by decide
  exact all (n % 16) (Nat.mod_lt n (by decide))

theorem isQuoted_unitEscape (n : Nat) : IsQuoted (unitEscape n) := by
  unfold unitEscape hex4
  refine .code (fun d hd => ?_) .nil
  simp only [List.mem_cons, List.not_mem_nil, or_false] at hd
  rcases hd with rfl | rfl | rfl | rfl <;> exact hexDigit_mem _

theorem isQuoted_escape (n : Nat) : IsQuoted (escape n) := by
  unfold escape
  split
  · exact isQuoted_unitEscape n
  · exact (isQuoted_unitEscape _).append (isQuoted_unitEscape _)

theorem isQuoted_symbol (ascii : Bool) (symbol : Symbol) : IsQuoted (symbolChars ascii symbol) := by
  unfold symbolChars
  split
  case h_8 hquote hbackslash _ _ _ _ _ =>
    split
    · exact isQuoted_escape _
    · rename_i hc
      exact .plain hquote hbackslash (Nat.le_of_not_lt fun hlt => hc (.inl hlt)) .nil
  case h_9 => exact isQuoted_escape _
  all_goals exact .simple (by decide) .nil

theorem isText_textChars (ascii : Bool) (text : Text) : IsText (textChars ascii text) := by
  refine .mk ?_
  induction text with
  | nil => exact .nil
  | cons symbol rest ih => exact (isQuoted_symbol ascii symbol).append ih

-- ---------------------------------------------------------------------------
-- Values
-- ---------------------------------------------------------------------------

theorem blank_nil : Blank [] := fun _ h => absurd h List.not_mem_nil

theorem blank_space : Blank [' '] := by simp [Blank]

theorem blank_break (style : Style) (level : Nat) : Blank (style.break level) := by
  unfold Style.break
  split
  · exact blank_nil
  · refine List.forall_mem_cons.mpr ⟨by simp, fun c hc => ?_⟩
    exact .inl (List.eq_of_mem_replicate hc)

theorem separator_eq (style : Style) (level : Nat) :
    ∃ gap, Blank gap ∧ style.separator level = ',' :: gap := by
  unfold Style.separator
  split
  · exact ⟨_, blank_space, rfl⟩
  · exact ⟨_, blank_break style level, rfl⟩

theorem isItems_chars (style : Style) {level : Nat} (outer : Nat) {items : List Json}
    (hv : IsValue (chars style level v)) (h : ∀ v ∈ items, IsValue (chars style level v))
    {before : List Char} (hb : Blank before) :
    IsItems (before ++ (chars style level v ++
      (itemChars style level items ++ style.break outer))) := by
  induction items generalizing v before with
  | nil => exact .last (.mk hb hv (blank_break style outer))
  | cons w more ih =>
    obtain ⟨hw, hmore⟩ := List.forall_mem_cons.mp h
    obtain ⟨gap, hgap, hseparator⟩ := separator_eq style level
    have hitems := IsItems.more (.mk hb hv blank_nil) (ih hw hmore hgap)
    rw [itemChars, hseparator]
    simpa only [List.append_assoc, List.cons_append, List.append_nil] using hitems

theorem isMembers_chars (style : Style) {level : Nat} (outer : Nat) (key : String)
    {members : List (String × Json)} (hv : IsValue (chars style level v))
    (h : ∀ member ∈ members, IsValue (chars style level member.2))
    {before : List Char} (hb : Blank before) :
    IsMembers (before ++ (textChars style.ascii (Text.ofString key) ++ (':' :: ' ' ::
      (chars style level v ++ (memberChars style level members ++ style.break outer))))) := by
  have hkey (key : String) : IsText (textChars style.ascii (Text.ofString key)) :=
    isText_textChars _ _
  induction members generalizing key v before with
  | nil => exact .last hb (hkey key) blank_nil (.mk blank_space hv (blank_break style outer))
  | cons member more ih =>
    obtain ⟨name, w⟩ := member
    obtain ⟨hw, hmore⟩ := List.forall_mem_cons.mp h
    obtain ⟨gap, hgap, hseparator⟩ := separator_eq style level
    have hmembers := IsMembers.more hb (hkey key) blank_nil (.mk blank_space hv blank_nil)
      (ih name hw hmore hgap)
    rw [memberChars, hseparator]
    simpa only [List.append_assoc, List.cons_append, List.nil_append, List.append_nil] using
      hmembers

/-- However a legible value is written, it is written as the grammar asks. -/
theorem Legible.isValue (h : Legible v) (level : Nat) : IsValue (chars style level v) := by
  induction h generalizing level with
  | null => exact .null
  | bool b =>
    cases b
    · exact .false
    · exact .true
  | int i => exact .number (isNumeral_of_number? (spells_int i).reads)
  | float hx => exact .number (isNumeral_of_number? (spells_float hx).reads)
  | text cs => exact .text (isText_textChars _ _)
  | @array items _ ih =>
    cases items with
    | nil => exact .emptyArray blank_nil
    | cons v rest =>
      obtain ⟨hv, hrest⟩ := List.forall_mem_cons.mp ih
      have hitems := IsValue.array (isItems_chars style level (hv (level + 1))
        (fun w hw => hrest w hw (level + 1)) (blank_break style (level + 1)))
      rw [chars]
      simpa only [List.append_assoc, List.cons_append] using hitems
  | @object members _ ih =>
    cases members with
    | nil => exact .emptyObject blank_nil
    | cons member rest =>
      obtain ⟨hv, hrest⟩ := List.forall_mem_cons.mp ih
      have hmembers := IsValue.object (isMembers_chars style level member.1 (hv (level + 1))
        (fun w hw => hrest w hw (level + 1)) (blank_break style (level + 1)))
      rw [chars]
      simpa only [List.append_assoc, List.cons_append, List.nil_append] using hmembers

theorem Legible.isElement (h : Legible v) (style : Style) :
    IsElement (render style v).toList := by
  have hvalue : IsValue (chars style 0 v) := h.isValue 0
  have helement := IsElement.mk blank_nil hvalue blank_nil
  rwa [List.nil_append, List.append_nil, ← String.toList_ofList (l := chars style 0 v)] at helement

-- ---------------------------------------------------------------------------
-- Printable documents
-- ---------------------------------------------------------------------------

/-- A character of ASCII that is no control character, or a line break. -/
def Printable (c : Char) : Prop := c = '\n' ∨ 0x20 ≤ c.toNat ∧ c.toNat < 0x7F

instance (c : Char) : Decidable (Printable c) :=
  inferInstanceAs (Decidable (c = '\n' ∨ 0x20 ≤ c.toNat ∧ c.toNat < 0x7F))

/-- Of fixed characters, each is looked at. -/
theorem printable_all (h : (cs.all fun c => decide (Printable c)) = true) :
    ∀ c ∈ cs, Printable c :=
  fun c hc => of_decide_eq_true (List.all_eq_true.mp h c hc)

theorem printable_hexDigit (n : Nat) : Printable (hexDigit n) :=
  printable_all rfl _ (hexDigit_mem n)

theorem printable_unitEscape (n : Nat) : ∀ c ∈ unitEscape n, Printable c := by
  have hdigit := printable_hexDigit
  simp only [unitEscape, hex4, List.forall_mem_cons]
  exact ⟨by decide, by decide, hdigit _, hdigit _, hdigit _, hdigit _,
    fun _ h => absurd h List.not_mem_nil⟩

theorem printable_symbol (symbol : Symbol) : ∀ c ∈ symbolChars true symbol, Printable c := by
  have hescape (n : Nat) : ∀ c ∈ escape n, Printable c := by
    unfold escape
    split
    · exact printable_unitEscape n
    · exact List.forall_mem_append.mpr ⟨printable_unitEscape _, printable_unitEscape _⟩
  unfold symbolChars
  split
  case h_8 =>
    split
    · exact hescape _
    · rename_i hc
      refine List.forall_mem_singleton.mpr (.inr ?_)
      simp only [true_and] at hc
      omega
  case h_9 => exact hescape _
  all_goals exact printable_all rfl

theorem printable_text (text : Text) : ∀ c ∈ textChars true text, Printable c := by
  refine List.forall_mem_append.mpr
    ⟨List.forall_mem_cons.mpr ⟨by decide, fun c hc => ?_⟩, printable_all rfl⟩
  obtain ⟨symbol, -, hc⟩ := List.mem_flatMap.mp hc
  exact printable_symbol symbol c hc

theorem printable_figures (h : Figures cs) : ∀ c ∈ cs, Printable c := by
  intro c hc
  have hothers : ∀ d ∈ "+-.eE".toList, Printable d := printable_all rfl
  rcases Bool.or_eq_true_iff.mp (h c hc) with hd | hd
  · have hbounds := (isDigit_bounds c).mp hd
    exact .inr (by omega)
  · exact hothers c (List.contains_iff_mem.mp hd)

theorem printable_break (level : Nat) : ∀ c ∈ Style.break ⟨indent, true⟩ level, Printable c := by
  cases indent with
  | none => exact fun c hc => absurd hc List.not_mem_nil
  | some width =>
    refine List.forall_mem_cons.mpr ⟨by decide, fun c hc => ?_⟩
    rw [List.eq_of_mem_replicate hc]
    decide

theorem printable_separator (level : Nat) :
    ∀ c ∈ Style.separator ⟨indent, true⟩ level, Printable c := by
  cases indent with
  | none => exact printable_all rfl
  | some width => exact List.forall_mem_cons.mpr ⟨by decide, printable_break level⟩

theorem printable_items {level : Nat} {items : List Json}
    (h : ∀ v ∈ items, ∀ c ∈ chars ⟨indent, true⟩ level v, Printable c) :
    ∀ c ∈ itemChars ⟨indent, true⟩ level items, Printable c := by
  induction items with
  | nil => exact fun c hc => absurd hc List.not_mem_nil
  | cons v rest ih =>
    obtain ⟨hv, hrest⟩ := List.forall_mem_cons.mp h
    simp only [itemChars, List.forall_mem_append]
    exact ⟨⟨printable_separator level, hv⟩, ih hrest⟩

theorem printable_members {level : Nat} {members : List (String × Json)}
    (h : ∀ member ∈ members, ∀ c ∈ chars ⟨indent, true⟩ level member.2, Printable c) :
    ∀ c ∈ memberChars ⟨indent, true⟩ level members, Printable c := by
  induction members with
  | nil => exact fun c hc => absurd hc List.not_mem_nil
  | cons member rest ih =>
    obtain ⟨hv, hrest⟩ := List.forall_mem_cons.mp h
    have hcolon : ∀ c ∈ [':', ' '], Printable c := printable_all rfl
    simp only [memberChars, List.forall_mem_append]
    exact ⟨⟨⟨⟨printable_separator level, printable_text _⟩, hcolon⟩, hv⟩, ih hrest⟩

/-- In ASCII, a legible value is written in printable characters. -/
theorem Legible.printable (h : Legible v) (level : Nat) :
    ∀ c ∈ chars ⟨indent, true⟩ level v, Printable c := by
  induction h generalizing level with
  | null => exact printable_all rfl
  | bool b =>
    cases b
    · exact printable_all rfl
    · exact printable_all rfl
  | int i => exact printable_figures (spells_int i).figures
  | float hx => exact printable_figures (spells_float hx).figures
  | text cs => exact printable_text _
  | @array items _ ih =>
    cases items with
    | nil => exact printable_all rfl
    | cons v rest =>
      obtain ⟨hv, hrest⟩ := List.forall_mem_cons.mp ih
      have hitems := printable_items fun w hw => hrest w hw (level + 1)
      simp only [chars, List.forall_mem_append, List.forall_mem_cons]
      exact ⟨⟨⟨⟨⟨by decide, printable_break _⟩, hv _⟩, hitems⟩, printable_break _⟩, by decide,
        List.forall_mem_nil _⟩
  | @object members _ ih =>
    cases members with
    | nil => exact printable_all rfl
    | cons member rest =>
      obtain ⟨hv, hrest⟩ := List.forall_mem_cons.mp ih
      have hmembers := printable_members fun w hw => hrest w hw (level + 1)
      simp only [chars, List.forall_mem_append, List.forall_mem_cons]
      exact ⟨⟨⟨⟨⟨⟨⟨by decide, printable_break _⟩, printable_text _⟩, by decide, by decide,
        List.forall_mem_nil _⟩, hv _⟩, hmembers⟩, printable_break _⟩, by decide,
        List.forall_mem_nil _⟩

-- ---------------------------------------------------------------------------
-- Reading
-- ---------------------------------------------------------------------------

/-- A legible value is read from what is written for it. -/
theorem parse?_render (style : Style) (h : Legible v) : parse? (render style v) = some v := by
  obtain ⟨ts, hv⟩ : ∃ ts, Conveys style v ts := h.conveys
  have htokens := hv.cut 0 [] (fun c hc => by cases hc)
  rw [List.append_nil, tokens?, Option.map_some, List.append_nil] at htokens
  rw [parse?, render, String.toList_ofList, htokens]
  simp [hv.folds, deliver]

/-- A value whose objects name no member twice, at any depth. -/
inductive Distinct : Json → Prop
  | null : Distinct .null
  | bool (b : Bool) : Distinct (.bool b)
  | int (i : Int) : Distinct (.int i)
  | float (x : Binary64) : Distinct (.float x)
  | text (t : Text) : Distinct (.text t)
  | array (h : ∀ v ∈ items, Distinct v) : Distinct (.array items)
  | object (hk : (members.map (·.1)).Nodup) (h : ∀ member ∈ members, Distinct member.2) :
      Distinct (.object members)

end Json

namespace Message

open Json (Distinct)

variable {s : Schema} {t : MessageType} {m : Message}

theorem distinct_doubleJson (x : Binary64) : Distinct (doubleJson x) := by
  unfold doubleJson
  split
  · exact .float x
  · exact .text _

theorem distinct_leafJson (s : Schema) (kind : FieldKind) (v : Value) :
    Distinct (leafJson s kind v) := by
  unfold leafJson
  split
  case h_1 i =>
    split
    · split
      · exact .text _
      · exact .int i
    · split
      · exact .text _
      · exact .int i
    · exact .int i
  case h_2 b => exact .bool b
  case h_3 x => exact distinct_doubleJson x
  case h_4 x => exact distinct_doubleJson _
  case h_5 => exact .text _
  case h_6 => split <;> exact .text _
  case h_7 => exact .null

/-- The members for some fields go by the fields' names, in their order. -/
theorem grouped_names (fields : List Field) (js : Field → List Json) :
    ((fields.filterMap fun f => Script.grouped f (js f)).map (·.1)).Sublist
      (fields.map (·.name)) := by
  induction fields with
  | nil => exact .refl _
  | cons f rest ih =>
    rw [List.filterMap_cons]
    cases hg : Script.grouped f (js f) with
    | none => exact ih.cons _
    | some member =>
      rw [List.map_cons, List.map_cons, grouped_name hg]
      exact ih.cons_cons _

theorem distinct_grouped {f : Field} {js : List Json} {member : String × Json}
    (h : ∀ v ∈ js, Distinct v) (hg : Script.grouped f js = some member) : Distinct member.2 := by
  by_cases hc : f.cardinality = .repeated
  · rw [Script.grouped_repeated hc] at hg
    obtain ⟨-, he⟩ := Option.ite_none_left_eq_some.mp hg
    cases he
    exact .array h
  · rw [Script.grouped_singular hc] at hg
    obtain ⟨v, hv, rfl⟩ := Option.map_eq_some_iff.mp hg
    exact h v (List.mem_of_head? hv)

/-- Fields go by names of their own, so the members of a dictionary do, at any depth. -/
theorem Instance.distinct (hs : s.Regular) (m : Message) :
    ∀ t ∈ s.messages, m.Instance s t → Distinct (m.toJson s t) := by
  induction m using nested_induction with
  | step m ih =>
    intro t ht hm
    have hr := hs.messages t ht
    have hvalue : ∀ f ∈ t.fields, ∀ v ∈ shown s f m, Distinct v := by
      intro f hf j hj
      obtain ⟨v, hv, rfl⟩ := List.mem_map.mp hj
      cases v with
      | message n =>
        obtain ⟨name, type, hk, htype, -⟩ := (hm.suits hr hf hv).fits
        have hn := ih _ (mem_toList_of_values hv) n rfl type (Script.message?_mem htype)
          ((hm.suits hr hf hv).nested hk htype)
        simpa only [fieldJson, typeOf?, hk, htype, toJson] using hn
      | _ =>
        rw [fieldJson]
        · exact distinct_leafJson s f.kind _
        · exact fun n hn => by cases hn
    rw [toJson_eq hs ht hm]
    refine .object ((Script.names_nodup hr).sublist (grouped_names _ _)) fun member hmember => ?_
    obtain ⟨f, hf, hgroup⟩ := List.mem_filterMap.mp hmember
    exact distinct_grouped (hvalue f hf) hgroup

end Message

open Schema

variable {w : Bytes} {path : Text} {session after : Session} {x : Decoded}

/-- The document of a tree is for every reader: whatever its indent, it is what the grammar asks for
and in printable ASCII, and it is read as the data of the tree, in which no object names a member
twice. -/
theorem document_portable (hl : Act.Loads path session after)
    (hx : (Act.decodeTree w path session).1 = .ok x) (indent : Nat) :
    Json.IsElement (x.document indent).toList ∧
      (∀ c ∈ (x.document indent).toList, Json.Printable c) ∧
        Json.parse? (x.document indent) = some x.toJson ∧ Json.Distinct x.toJson := by
  obtain ⟨hs, ht, hm⟩ := Act.decodeTree_instance hl hx
  have hlegible : Json.Legible x.toJson := Message.legible_toJson ..
  have hdistinct := Message.Instance.distinct Script.bundled_regular x.message _ ast_mem hm
  have hdocument : x.document indent = Json.render ⟨some indent, true⟩ x.toJson := rfl
  rw [hdocument]
  refine ⟨hlegible.isElement _, ?_, Json.parse?_render _ hlegible, ?_⟩
  · rw [Json.render, String.toList_ofList]
    exact hlegible.printable 0
  · rwa [Decoded.toJson, hs, ht]

open Message in
/-- The document of a negative zero, without and with an indent. -/
theorem minus_portable :
    let tree : Decoded := ⟨bundled, Bundled.ast, numeric (literalOf ⟨0x8000000000000000⟩)⟩
    Act.Loads informedPath .informed .informed ∧
      (Act.decodeTree tree.message.octets informedPath .informed).1 = .ok tree ∧
      ∀ indent ∈ [0, 2], Json.IsElement (tree.document indent).toList ∧
        (∀ c ∈ (tree.document indent).toList, Json.Printable c) ∧
          Json.parse? (tree.document indent) = some tree.toJson ∧ Json.Distinct tree.toJson := by
  intro tree
  have hread : (Act.decodeTree tree.message.octets informedPath .informed).1 = .ok tree :=
    numeric_decodes (literalOf_instance rfl) (by decide) (by decide)
  exact ⟨Session.informed_loads, hread,
    fun indent _ => document_portable Session.informed_loads hread indent⟩

end Treewire
