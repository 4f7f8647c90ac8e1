import Treewire.Proofs.Bodies
import Treewire.Proofs.Foreign
import Treewire.Proofs.Views

/-!
# Records put in between

Records that a type has no place for can be put anywhere between the records of a message, and of
the messages in it, with the lengths around them set right. `Message.Inserts` is a body before and
after. Both have the records that the reader looks at, so both decode to the same message or not at
all (`decode?_of_inserts`), and no view of a tree tells one from the other.
-/

namespace Treewire

open Schema Wire

/-- A body of a type, and the same with one foreign record more: among the records of the body, or
of a message in it. A record that was made longer has a new length, and any tag and length may be
padded. So many messages may be around the records, and as many groups within the new one. -/
inductive Message.Inserts (s : Schema) : Nat → MessageType → Bytes → Bytes → Prop
  | here {front new back : Bytes} (hb : IsBody before front) (ha : IsBody after back)
      (hr : IsBody [record] new) (hf : t.Foreign record) (hd : record.2.depth ≤ room) :
      Message.Inserts s room t (front ++ back) (front ++ (new ++ back))
  | within {front old new back : Bytes} (hb : IsBody before front) (ha : IsBody after back)
      (hf : t.field? number = some f) (hk : f.kind = .message name)
      (ht : s.message? name = some type) (hi : IsItem (number, .block body) old)
      (hi' : IsItem (number, .block body') new) (h : Message.Inserts s room type body body') :
      Message.Inserts s (room + 1) t (front ++ (old ++ back)) (front ++ (new ++ back))

namespace Message

variable {s : Schema} {t : MessageType} {m : Message} {room : Nat} {w w' : Bytes}

/-- With the new record and without it, the same is absorbed. -/
theorem Inserts.absorb_eq (hs : s.Regular) (h : Inserts s room t w w') :
    ∃ list list', IsBody list w ∧ IsBody list' w' ∧
      ∀ m, absorb s room t m list' = absorb s room t m list := by
  induction h with
  | here hb ha hr hf hd =>
    refine ⟨_, _, hb.append ha, hb.append (hr.append ha), fun m => ?_⟩
    rw [absorb_append, absorb_append]
    refine congrArg _ (funext fun m => ?_)
    rw [List.singleton_append, absorb_cons, absorbRecord_foreign hf, if_pos hd, Option.bind_some]
  | within hb ha hf hk ht hi hi' _ ih =>
    obtain ⟨list, list', hl, hl', hsame⟩ := ih
    have hmap := (hs.messages _ (Script.message?_mem ht)).single
    refine ⟨_, _, hb.append (.leaf hi rfl ha), hb.append (.leaf hi' rfl ha), fun m => ?_⟩
    rw [absorb_append, absorb_append]
    refine congrArg _ (funext fun m => ?_)
    rw [absorb_cons, absorb_cons, absorbRecord_block hf hk ht hmap,
      absorbRecord_block hf hk ht hmap, records?_eq_some_iff.mpr hl, records?_eq_some_iff.mpr hl']
    simp only [nestedReader, Option.bind_some, hsame]

/-- What a body decodes to does not depend on foreign records, nor does whether it decodes. -/
theorem decode?_of_inserts (hs : s.Regular) (h : Inserts s depthLimit t w w') :
    decode? s t w' = decode? s t w := by
  obtain ⟨list, list', hl, hl', hsame⟩ := h.absorb_eq hs
  rw [decode?, decode?, records?_eq_some_iff.mpr hl, records?_eq_some_iff.mpr hl']
  exact hsame .empty

end Message

variable {w : Bytes} {path : Text} {session after : Session} {x : Decoded}

/-- Fields that the schema does not know are invisible. A payload that is accepted is a body, and
with a foreign record put in between its records, or those of a message in it at any depth, it is
accepted too, and all three views are the same. -/
theorem decodeTree_inserted (hl : Act.Loads path session after)
    (hx : (Act.decodeTree w path session).1 = .ok x) :
    (∃ records, IsBody records w) ∧
    ∀ w', Message.Inserts bundled Message.depthLimit Bundled.ast w w' →
      ∃ y : Decoded, Act.decodeTree w' path session = (.ok y, after) ∧ y.toJson = x.toJson ∧
        (∀ indent, y.document indent = x.document indent) ∧ y.listing = x.listing := by
  obtain ⟨m, hm, rfl⟩ := (Act.decodeTree_ok_iff hl).mp hx
  obtain ⟨records, hrecords, -⟩ := Message.decode?_eq_some.mp hm
  refine ⟨⟨records, records?_eq_some_iff.mp hrecords⟩, fun w' h => ?_⟩
  have hm' := (Message.decode?_of_inserts Script.bundled_regular h).trans hm
  refine ⟨⟨bundled, Bundled.ast, m⟩, ?_, rfl, fun _ => rfl, rfl⟩
  rw [Act.decodeTree_eq hl, hm']

namespace Message

/-- The statement of the script `[,];`. -/
def holeStatement : Bytes := [58, 6, 10, 4, 82, 2, 10, 0]

/-- A number in a group. No statement has a field of the group's number. -/
def unknownGroup : Bytes := [155, 1, 8, 5, 156, 1]

theorem unknownGroup_isBody : IsBody [(19, .group [(1, .varint 5)])] unknownGroup := by
  have hopen : IsItem (19, .openGroup) [155, 1] := isItem_itemOctets (by decide) (by decide)
  have hnumber : IsItem (1, .varint 5) [8, 5] := isItem_itemOctets (by decide) (by decide)
  have hclose : IsItem (19, .closeGroup) [156, 1] := isItem_itemOctets (by decide) (by decide)
  exact .group hopen (.leaf hnumber rfl .nil) hclose .nil

theorem hole_inserts_group :
    Inserts bundled depthLimit Bundled.ast Script.holeOctets
      (10 :: 14 :: (unknownGroup ++ holeStatement)) := by
  have hstatement := message?_of_mem (t := Bundled.statement) (by simp [bundled]) rfl
  have hinner : IsItem (7, .block [10, 4, 82, 2, 10, 0]) holeStatement :=
    isItem_itemOctets (by decide) (by decide)
  have hold : IsItem (1, .block holeStatement) Script.holeOctets :=
    isItem_itemOctets (by decide) (by decide)
  have hnew : IsItem (1, .block (unknownGroup ++ holeStatement))
      (10 :: 14 :: (unknownGroup ++ holeStatement)) := isItem_itemOctets (by decide) (by decide)
  have hforeign : Bundled.statement.Foreign (19, .group [(1, .varint 5)]) := fun f hf => by
    have hf : none = some f := hf
    cases hf
  have hhere : Inserts bundled 99 Bundled.statement holeStatement (unknownGroup ++ holeStatement) :=
    .here .nil (.leaf hinner rfl .nil) unknownGroup_isBody hforeign (by decide)
  exact .within .nil .nil rfl rfl hstatement hold hnew hhere

/-- A number where trees have statements. -/
theorem hole_inserts_number :
    Inserts bundled depthLimit Bundled.ast Script.holeOctets (Script.holeOctets ++ [8, 1]) := by
  have hold : IsItem (1, .block holeStatement) Script.holeOctets :=
    isItem_itemOctets (by decide) (by decide)
  have hnew : IsItem (1, .varint 1) [8, 1] := isItem_itemOctets (by decide) (by decide)
  have hforeign : Bundled.ast.Foreign (1, .varint 1) := fun f hf => by
    cases hf
    rfl
  exact .here (.leaf hold rfl .nil) .nil (.leaf hnew rfl .nil) hforeign (by decide)

/-- With a group within a statement, or a number behind it, the tree is the same. -/
theorem hole_inserted :
    Act.Loads informedPath .informed .informed ∧
    ∃ x : Decoded,
      (Act.decodeTree Script.holeOctets informedPath .informed).1 = .ok x ∧
      ∀ w' ∈ [10 :: 14 :: (unknownGroup ++ holeStatement), Script.holeOctets ++ [8, 1]],
        Inserts bundled depthLimit Bundled.ast Script.holeOctets w' ∧
          ∃ y : Decoded, Act.decodeTree w' informedPath .informed = (.ok y, .informed) ∧
            y.toJson = x.toJson ∧ (∀ indent, y.document indent = x.document indent) ∧
              y.listing = x.listing := by
  have hread := Script.decode?_of_encodes Script.bundled_regular bundled_ast Script.hole_encodes
  obtain ⟨m, hm, -⟩ := hread.1 (by decide)
  have hx : (Act.decodeTree Script.holeOctets informedPath .informed).1 =
      .ok ⟨bundled, Bundled.ast, m⟩ :=
    (Act.decodeTree_ok_iff Session.informed_loads).mpr ⟨m, hm, rfl⟩
  obtain ⟨-, hsame⟩ := decodeTree_inserted Session.informed_loads hx
  refine ⟨Session.informed_loads, _, hx, fun w' hw' => ?_⟩
  have hinserts : Inserts bundled depthLimit Bundled.ast Script.holeOctets w' := by
    rcases List.mem_cons.mp hw' with rfl | hw'
    · exact hole_inserts_group
    · rw [List.mem_singleton.mp hw']
      exact hole_inserts_number
  exact ⟨hinserts, hsame w' hinserts⟩

end Message

end Treewire
