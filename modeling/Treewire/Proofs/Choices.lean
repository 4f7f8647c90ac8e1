import Treewire.Proofs.Conversion
import Treewire.Proofs.Grammar
import Treewire.Proofs.Keeping
import Treewire.Proofs.Writing

/-!
# Choices in forms

A message with a oneof asks for a choice: one of the members has to be there. `Form.parts` lists the
records of a form with the messages that they are for, and `TypedRecord.IsDecided` says of one that
all of its choices are made. Two kinds of records are not decided. A hole of an array is an
expression without members, and an access to a property without a name is one without a property.

Where these stand is compared with the tree by marks. Each array and each access leaves one, in the
tree as in the form, and `Shows` says that a form has the marks of what it was converted from.
-/

namespace Treewire.Script

open Schema

-- ---------------------------------------------------------------------------
-- Parts of a form
-- ---------------------------------------------------------------------------

/-- A record of a form, with the message that it is for. -/
structure TypedRecord where
  type : MessageType
  members : Form.Members

namespace Form

mutual
/-- All records of a form that is for a field of some kind, the outermost first. -/
def parts (s : Schema) (kind : FieldKind) : Form → List TypedRecord
  | .list items => itemParts s kind items
  | .record members =>
    match kind with
    | .message name =>
      match s.message? name with
      | some t => ⟨t, members⟩ :: memberParts s t members
      | none => []
    | _ => []
  | _ => []
/-- The records of items. -/
def itemParts (s : Schema) (kind : FieldKind) : List Form → List TypedRecord
  | [] => []
  | x :: rest => parts s kind x ++ itemParts s kind rest
/-- The records of members, each for the field that it is named after. -/
def memberParts (s : Schema) (t : MessageType) : Members → List TypedRecord
  | [] => []
  | (key, x) :: rest =>
    (match t.fields.find? (·.key == key) with
      | some f => parts s f.kind x
      | none => []) ++ memberParts s t rest
end

/-- A record without members, as a hole of an array is one. -/
def isHole : Form → Bool
  | .record [] => true
  | _ => false

/-- Whether a member has a hole for its value, or among its values. -/
def hasHole : Form → Bool
  | .list items => items.any isHole
  | x => x.isHole

end Form

namespace TypedRecord

/-- The members that belong to a oneof. -/
def chosen (q : TypedRecord) (oneof : String) : Form.Members :=
  q.members.filter fun m => q.type.fields.any fun f => f.key == m.1 && f.oneof == some oneof

/-- For each oneof there is exactly one member. The start of a counting loop may be left out, and
so its choice may be left open. -/
def IsDecided (q : TypedRecord) : Prop :=
  ∀ f ∈ q.type.fields, ∀ oneof, f.oneof = some oneof → oneof ≠ "initializer" →
    ∃ m, q.chosen oneof = [m]

/-- An expression of which nothing is said. -/
def IsHole (q : TypedRecord) : Prop := q.type = Bundled.expression ∧ q.members = []

/-- An access of which the property is not said. -/
def IsNameless (q : TypedRecord) : Prop :=
  q.type = Bundled.memberExpression ∧ q.chosen "property" = []

/-- Whether an expression among the members is a hole. -/
def HasHole (q : TypedRecord) : Prop :=
  ∃ f ∈ q.type.fields, f.kind = .message Bundled.expression.name ∧
    ∃ x, (f.key, x) ∈ q.members ∧ x.hasHole = true

/-- All choices are made but for the two exceptions, and holes are in arrays. -/
structure Sound (q : TypedRecord) : Prop where
  decided : q.IsDecided ∨ q.IsHole ∨ q.IsNameless
  holes : q.HasHole → q.type = Bundled.arrayExpression

end TypedRecord

-- ---------------------------------------------------------------------------
-- Marks
-- ---------------------------------------------------------------------------

/-- What is compared between a tree and its form: of an array, which elements are given, and of an
access, whether it says to which property. -/
inductive Mark where
  | array (given : List Bool)
  | access (named : Bool)
  deriving DecidableEq

namespace Site

/-- The mark of a node. An access is to a property that has a name, unless it is computed. -/
def mark : Site → Option Mark
  | ⟨.expression, .arrayExpression _ elements⟩ => some (.array (elements.map Node.isPresent))
  | ⟨.expression, .memberExpression _ _ _ computed _ property⟩ =>
    some (.access (computed || property.name?.isSome))
  | _ => none

/-- The marks of all nodes that are reached. -/
def marks (s : Site) : List Mark := s.reached.filterMap mark

end Site

/-- The mark of a record. -/
def TypedRecord.mark (q : TypedRecord) : Option Mark :=
  if q.type = Bundled.arrayExpression then
    match q.members.lookup "elements" with
    | some (.list elements) => some (.array (elements.map fun x => !x.isHole))
    | _ => some (.array [])
  else if q.type = Bundled.memberExpression then some (.access (!(q.chosen "property").isEmpty))
  else none

variable {n : Node} {ns : List Node} {position : Position}

theorem marks_eq (s : Site) : s.marks = s.mark.toList ++ s.parts.flatMap Site.marks := by
  have hparts : (s.parts.flatMap Site.reached).filterMap Site.mark =
      s.parts.flatMap Site.marks := List.filterMap_flatMap
  rw [Site.marks, reached_eq, List.filterMap_cons, hparts]
  cases s.mark <;> rfl

/-- What is absent bears no marks. -/
@[simp] theorem marks_absent : (Site.mk position .absent).marks = [] := by
  rw [marks_eq]
  cases position <;> rfl

/-- The marks of nodes at one position. -/
def marksOf (position : Position) (ns : List Node) : List Mark :=
  ns.flatMap fun n => (Site.mk position n).marks

theorem marks_sites : (sites position ns).flatMap Site.marks = marksOf position ns := by
  induction ns with
  | nil => rfl
  | cons n rest ih =>
    rw [marksOf, List.flatMap_cons, ← marksOf, ← ih, sites, List.filter_cons]
    split
    · rfl
    · rename_i hn
      cases n with
      | absent => rw [marks_absent, List.nil_append, sites]
      | _ => exact absurd rfl hn

@[simp] theorem marksOf_nil : marksOf position [] = [] := rfl

theorem marksOf_cons :
    marksOf position (n :: ns) = (Site.mk position n).marks ++ marksOf position ns := rfl

-- ---------------------------------------------------------------------------
-- Forms that bear marks
-- ---------------------------------------------------------------------------

/-- A form of a message, or a list of them, that is sound and bears some marks. No expression in it
is a hole. -/
structure Shows (t : MessageType) (marks : List Mark) (x : Form) : Prop where
  sound : ∀ q ∈ x.parts bundled (.message t.name), q.Sound
  bears : marks.Perm ((x.parts bundled (.message t.name)).filterMap TypedRecord.mark)
  given : t.name = Bundled.expression.name → x.hasHole = false

/-- Whether members for the fields with some numbers make all choices. -/
def decides (t : MessageType) (is : List Nat) : Bool :=
  t.fields.all fun f => match f.oneof with
    | none => true
    | some oneof => oneof == "initializer" ||
      (is.filter fun i => (t.field? i).any (·.oneof == some oneof)).length == 1

/-- Members of a message that are for fields with the given numbers, in order. A member may be
missing if it is not a choice. -/
inductive MembersShow (t : MessageType) : List Nat → List Mark → Form.Members → Prop
  | nil : MembersShow t [] [] []
  | leaf (hd : t.Declares i key slot) (hk : ∀ name, slot.kind ≠ .message name)
      (hr : MembersShow t is marks others) : MembersShow t (i :: is) marks ((key, x) :: others)
  | part (hd : t.Declares i key slot) (hk : slot.kind = .message u.name) (hx : Shows u marks x)
      (hr : MembersShow t is more others) :
      MembersShow t (i :: is) (marks ++ more) ((key, x) :: others)
  | skip (hf : ∀ f, t.field? i = some f → f.oneof = none) (hr : MembersShow t is marks others) :
      MembersShow t (i :: is) marks others

variable {t u : MessageType} {marks more : List Mark} {members others : Form.Members} {x : Form}
  {is js : List Nat}

mutual
/-- There are no records where no field asks for one. -/
theorem parts_leaf {s : Schema} {kind : FieldKind} (hk : ∀ name, kind ≠ .message name) :
    (x : Form) → x.parts s kind = []
  | .bool _ | .number _ | .text _ => rfl
  | .list items => itemParts_leaf hk items
  | .record members => by
    cases kind with
    | message name => exact absurd rfl (hk name)
    | _ => rfl
theorem itemParts_leaf {s : Schema} {kind : FieldKind} (hk : ∀ name, kind ≠ .message name) :
    (xs : List Form) → Form.itemParts s kind xs = []
  | [] => rfl
  | x :: rest => by rw [Form.itemParts, parts_leaf hk x, itemParts_leaf hk rest, List.append_nil]
end

namespace Shows

theorem nil : Shows t [] (.list []) :=
  ⟨nofun, .refl _, fun _ => rfl⟩

theorem hasHole_of_isHole (h : x.isHole = true) : x.hasHole = true := by
  cases x with
  | list => cases h
  | _ => exact h

theorem cons {xs : List Form} (hx : Shows t marks x) (hr : Shows t more (.list xs)) :
    Shows t (marks ++ more) (.list (x :: xs)) where
  sound := by
    have hs := List.forall_mem_append.mpr ⟨hx.sound, hr.sound⟩
    simpa only [Form.parts, Form.itemParts] using hs
  bears := by
    have hb := hx.bears.append hr.bears
    rwa [← List.filterMap_append] at hb
  given ht := by
    have hx := hx.given ht
    have hxs := hr.given ht
    rw [Form.hasHole] at hxs ⊢
    rw [List.any_cons, hxs, Bool.or_false, Bool.eq_false_iff]
    intro h
    rw [hasHole_of_isHole h] at hx
    cases hx

/-- What is shown for each node of a list is shown for the list. -/
theorem each {f : Node → Converted Form} (h : Each f ns xs)
    (hx : ∀ n ∈ ns, ∀ x, f n = .ok x → Shows t (Site.mk position n).marks x) :
    Shows t (marksOf position ns) (.list xs) := by
  induction h with
  | nil => exact nil
  | cons hf _ ih =>
    rw [List.forall_mem_cons] at hx
    exact (hx.1 _ hf).cons (ih hx.2)

theorem perm (hx : Shows t marks x) (h : marks.Perm more) : Shows t more x :=
  { hx with bears := h.symm.trans hx.bears }

end Shows

namespace MembersShow

theorem text (hd : t.Declares i key (.one (.scalar kind))) (hr : MembersShow t is marks others) :
    MembersShow t (i :: is) marks ((key, x) :: others) :=
  .leaf hd nofun hr

theorem texts (hd : t.Declares i key (.many (.scalar kind))) (hr : MembersShow t is marks others) :
    MembersShow t (i :: is) marks ((key, x) :: others) :=
  .leaf hd nofun hr

theorem choice (hd : t.Declares i key (.one (.enum name))) (hr : MembersShow t is marks others) :
    MembersShow t (i :: is) marks ((key, x) :: others) :=
  .leaf hd nofun hr

/-- A member for a message. -/
theorem sub (hx : Shows u marks x) (hd : t.Declares i key (.one (.message u.name)))
    (hr : MembersShow t is more others) :
    MembersShow t (i :: is) (marks ++ more) ((key, x) :: others) :=
  .part hd rfl hx hr

/-- A member for a list of messages. -/
theorem subs {xs : List Form} (hx : Shows u marks (.list xs))
    (hd : t.Declares i key (.many (.message u.name))) (hr : MembersShow t is more others) :
    MembersShow t (i :: is) (marks ++ more) ((key, .list xs) :: others) :=
  .part hd rfl hx hr

theorem last (hx : Shows u marks x) (hd : t.Declares i key (.one (.message u.name))) :
    MembersShow t [i] marks [(key, x)] := by
  have hone := sub hx hd .nil
  rwa [List.append_nil] at hone

theorem lasts {xs : List Form} (hx : Shows u marks (.list xs))
    (hd : t.Declares i key (.many (.message u.name))) :
    MembersShow t [i] marks [(key, .list xs)] := by
  have hone := subs hx hd .nil
  rwa [List.append_nil] at hone

theorem optionally (hx : ∀ x, convert () = .ok x → Shows u (Site.mk position n).marks x)
    (hd : t.Declares i key (.one (.message u.name)))
    (hf : (t.field? i).all (·.oneof.isNone) = true)
    (h : Script.optionally key n convert = .ok members) :
    MembersShow t [i] (Site.mk position n).marks members := by
  unfold Script.optionally at h
  split at h
  · rw [← pure_ok.mp h, marks_absent]
    exact .skip (fun f hi => by simpa [hi] using hf) .nil
  · simp only [bind_ok, pure_ok] at h
    obtain ⟨x, hc, rfl⟩ := h
    exact .last (hx x hc) hd

/-- A member for a text that may be missing. -/
theorem optional (hd : t.Declares i key (.one (.scalar .string)))
    (hf : (t.field? i).all (·.oneof.isNone) = true) {value : Option Text} :
    MembersShow t [i] [] (Form.optional key (value.map .text)) := by
  cases value with
  | none => exact .skip (fun f hi => by simpa [hi] using hf) .nil
  | some v => exact .text hd .nil

theorem nameMember (hd : t.Declares i key (.one (.scalar .string)))
    (hf : (t.field? i).all (·.oneof.isNone) = true)
    (h : Script.nameMember key n = .ok members) : MembersShow t [i] [] members := by
  unfold Script.nameMember at h
  split at h
  · simp at h
  · rw [← pure_ok.mp h]
    exact .optional hd hf

theorem nameOrEmpty (hd : t.Declares i "name" (.one (.scalar .string)))
    (hf : (t.field? i).all (·.oneof.isNone) = true) :
    MembersShow t [i] [] (Script.nameOrEmpty n) := by
  unfold Script.nameOrEmpty
  split
  · exact .text hd .nil
  · exact .optional hd hf

theorem labelMember (hd : t.Declares i "label" (.one (.scalar .string)))
    (hf : (t.field? i).all (·.oneof.isNone) = true) :
    MembersShow t [i] [] (Script.labelMember n) := by
  unfold Script.labelMember
  split
  · exact .skip (fun f hi => by simpa [hi] using hf) .nil
  · exact .optional hd hf

theorem append (hm : MembersShow t is marks members) (hr : MembersShow t js more others) :
    MembersShow t (is ++ js) (marks ++ more) (members ++ others) := by
  induction hm with
  | nil => exact hr
  | leaf hd hk _ ih => exact .leaf hd hk ih
  | part hd hk hx _ ih =>
    rw [List.append_assoc]
    exact .part hd hk hx ih
  | skip hf _ ih => exact .skip hf ih

/-- The records of a member, by what its field asks for. -/
theorem memberParts_cons (ht : t.Regular) (hd : t.Declares i key slot) :
    Form.memberParts bundled t ((key, x) :: others) =
      x.parts bundled slot.kind ++ Form.memberParts bundled t others := by
  obtain ⟨f, hf, rfl, rfl⟩ := hd
  rw [Form.memberParts, find?_key ht ((field?_eq_some ht).mp hf).1, Field.slot_kind]

/-- The members bear the marks, and their records are sound. -/
theorem parts (ht : t.Regular) (hm : MembersShow t is marks members) :
    (∀ q ∈ Form.memberParts bundled t members, q.Sound) ∧
      marks.Perm ((Form.memberParts bundled t members).filterMap TypedRecord.mark) := by
  induction hm with
  | nil => exact ⟨nofun, .refl _⟩
  | leaf hd hk _ ih =>
    rw [memberParts_cons ht hd, parts_leaf hk, List.nil_append]
    exact ih
  | part hd hk hx _ ih =>
    rw [memberParts_cons ht hd, hk, List.filterMap_append]
    exact ⟨List.forall_mem_append.mpr ⟨hx.sound, ih.1⟩, hx.bears.append ih.2⟩
  | skip _ _ ih => exact ih

/-- No expression among the members is a hole. -/
theorem given (ht : t.Regular) (hm : MembersShow t is marks members) (hf : f ∈ t.fields)
    (hk : f.kind = .message Bundled.expression.name) (hx : (f.key, x) ∈ members) :
    x.hasHole = false := by
  induction hm with
  | nil => cases hx
  | leaf hd hleaf _ ih =>
    rcases List.mem_cons.mp hx with he | hx
    · obtain ⟨g, hg, hkey, rfl⟩ := hd
      cases he
      obtain rfl := key_inj ht ((field?_eq_some ht).mp hg).1 hf hkey
      exact absurd (by rw [Field.slot_kind, hk]) (hleaf _)
    · exact ih hx
  | part hd hpart hshows _ ih =>
    rcases List.mem_cons.mp hx with he | hx
    · obtain ⟨g, hg, hkey, rfl⟩ := hd
      cases he
      obtain rfl := key_inj ht ((field?_eq_some ht).mp hg).1 hf hkey
      rw [Field.slot_kind, hk] at hpart
      exact hshows.given (FieldKind.message.inj hpart).symm
    · exact ih hx
  | skip _ _ ih => exact ih hx

/-- As many members belong to a oneof as numbers do. -/
theorem length_chosen (ht : t.Regular) (hm : MembersShow t is marks members) (oneof : String) :
    ((TypedRecord.mk t members).chosen oneof).length =
      (is.filter fun i => (t.field? i).any (·.oneof == some oneof)).length := by
  have hbelongs (f : Field) (hf : f ∈ t.fields) :
      (t.fields.any fun g => g.key == f.key && g.oneof == some oneof) =
        (f.oneof == some oneof) := by
    rw [Bool.eq_iff_iff, List.any_eq_true]
    constructor
    · rintro ⟨g, hg, h⟩
      rw [Bool.and_eq_true, beq_iff_eq] at h
      rw [← key_inj ht hg hf h.1]
      exact h.2
    · intro h
      exact ⟨f, hf, by rw [h, Bool.and_true]; exact beq_self_eq_true _⟩
  induction hm with
  | nil => rfl
  | leaf hd _ _ ih | part hd _ _ _ ih =>
    obtain ⟨f, hf, rfl, rfl⟩ := hd
    have hb := hbelongs f ((field?_eq_some ht).mp hf).1
    rw [TypedRecord.chosen] at ih ⊢
    simp only [List.filter_cons, hb, hf, Option.any_some]
    split <;> simp only [List.length_cons, ih]
  | @skip i _ _ _ hf _ ih =>
    have hnone : (t.field? i).any (·.oneof == some oneof) = false := by
      cases hi : t.field? i with
      | none => rfl
      | some f => simp [hf f hi]
    rw [List.filter_cons, hnone]
    exact ih

theorem isDecided (ht : t.Regular) (hm : MembersShow t is marks members)
    (hd : decides t is = true) : (TypedRecord.mk t members).IsDecided := by
  intro f hf oneof ho hne
  have hone := List.all_eq_true.mp hd f hf
  rw [ho] at hone
  simp only [Bool.or_eq_true, beq_iff_eq, hne, false_or] at hone
  rw [← hm.length_chosen ht] at hone
  exact List.length_eq_one_iff.mp hone

end MembersShow

/-- Whether records of a message bear no marks. -/
def isUnmarked (t : MessageType) : Bool :=
  t.fields.all fun f => f.name != "elements" && f.oneof != some "property"

theorem mark_of_isUnmarked (h : isUnmarked t = true) : (TypedRecord.mk t members).mark = none := by
  have harray : t ≠ Bundled.arrayExpression := by
    rintro rfl
    cases h
  have haccess : t ≠ Bundled.memberExpression := by
    rintro rfl
    cases h
  rw [TypedRecord.mark, if_neg harray, if_neg haccess]

theorem parts_record (ht : t ∈ bundled.messages) (members : Form.Members) :
    (Form.record members).parts bundled (.message t.name) =
      ⟨t, members⟩ :: Form.memberParts bundled t members := by
  rw [Form.parts, bundled_message? t ht]

/-- A record bears its own mark before those of its members, if it may leave the choices open that it
leaves open. -/
theorem MembersShow.shows (ht : t ∈ bundled.messages) (hm : MembersShow t is marks members)
    (hc : (TypedRecord.mk t members).IsDecided ∨ (TypedRecord.mk t members).IsHole ∨
      (TypedRecord.mk t members).IsNameless)
    (hg : t.name = Bundled.expression.name → (Form.record members).hasHole = false) :
    Shows t ((TypedRecord.mk t members).mark.toList ++ marks) (.record members) := by
  have hr := bundled_regular.messages t ht
  obtain ⟨hsound, hbears⟩ := hm.parts hr
  refine ⟨?_, ?_, hg⟩
  · rw [parts_record ht, List.forall_mem_cons]
    refine ⟨⟨hc, ?_⟩, hsound⟩
    rintro ⟨f, hf, hk, x, hx, hhole⟩
    rw [hm.given hr hf hk hx] at hhole
    cases hhole
  · rw [parts_record ht, List.filterMap_cons]
    cases (TypedRecord.mk t members).mark with
    | none => exact hbears
    | some mark => exact hbears.cons mark

/-- A record that makes all choices. -/
theorem Shows.record (t : MessageType) (is : List Nat) (ht : t ∈ bundled.messages)
    (hd : decides t is = true) (hu : isUnmarked t = true)
    (hm : MembersShow t is marks members) : Shows t marks (.record members) := by
  have hdecided := hm.isDecided (bundled_regular.messages t ht) hd
  have hshows := hm.shows ht (.inl hdecided) fun hname => ?_
  · rwa [mark_of_isUnmarked hu] at hshows
  · -- An expression has a member, since it makes a choice.
    obtain rfl : t = Bundled.expression := by
      have hsame := bundled_message? t ht
      rw [hname, bundled_message? Bundled.expression (by simp [bundled])] at hsame
      exact (Option.some.inj hsame).symm
    obtain ⟨m, hm⟩ := hdecided _ (List.mem_cons_self ..) "expression" rfl (by decide)
    cases members with
    | nil => cases hm
    | cons => rfl

/-- A statement with its only member. -/
theorem Shows.statement (i : Nat) (hx : Shows u marks x)
    (hd : Bundled.statement.Declares i key (.one (.message u.name)))
    (hi : decides Bundled.statement [i] = true) :
    Shows Bundled.statement marks (.record [(key, x)]) :=
  .record _ [i] (by simp [bundled]) hi rfl (.last hx hd)

/-- An expression with its only member. -/
theorem Shows.expression (i : Nat) (hx : Shows u marks x)
    (hd : Bundled.expression.Declares i key (.one (.message u.name)))
    (hi : decides Bundled.expression [i] = true) :
    Shows Bundled.expression marks (.record [(key, x)]) :=
  .record _ [i] (by simp [bundled]) hi rfl (.last hx hd)

/-- A field of an object literal with its only member. -/
theorem Shows.field (i : Nat) (hx : Shows u marks x)
    (hd : Bundled.objectField.Declares i key (.one (.message u.name)))
    (hi : decides Bundled.objectField [i] = true) :
    Shows Bundled.objectField marks (.record [(key, x)]) :=
  .record _ [i] (by simp [bundled]) hi rfl (.last hx hd)

end Treewire.Script
