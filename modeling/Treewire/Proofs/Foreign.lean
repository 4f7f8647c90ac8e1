import Treewire.Proofs.Decoded

/-!
# Records that a type has no place for

A record is foreign to a type if the type has no field of its number, or one whose values are
written with another wire type. Whatever it holds, the reader passes over it
(`absorbRecord_foreign`), as long as its groups nest no deeper than messages may. Every other record
of a message field is a message, in place of the one before or merged into it
(`absorbRecord_block`).
-/

namespace Treewire

open Wire

/-- The wire type that announces a content. -/
def Wire.Content.wireType : Content → Nat
  | .varint _ => 0
  | .fixed64 _ => 1
  | .block _ => 2
  | .group _ => 3
  | .fixed32 _ => 5

/-- The wire type that a value of a kind is written with. -/
def FieldKind.wireType : FieldKind → Nat
  | .scalar kind => (Message.packedWireType? kind).getD 2
  | .enum _ => 0
  | .message _ => 2
  | .group _ => 3

/-- Whether a record of a field may have a wire type. Values of a repeated field may also be packed
in one block. -/
def Field.takes (f : Field) (wireType : Nat) : Bool :=
  wireType == f.kind.wireType ||
    (wireType == 2 && f.cardinality == .repeated && (Message.packing? f.kind).isSome)

/-- A record with a number that the type does not have, or has with another wire type. -/
def MessageType.Foreign (t : MessageType) (record : Record) : Prop :=
  ∀ f, t.field? record.1 = some f → f.takes record.2.wireType = false

namespace Message

variable {s : Schema} {t : MessageType} {f : Field} {m : Message} {kind : FieldKind}
  {content : Content} {room number : Nat} {nested : Option Absorb}

theorem readLeaf_foreign (h : content.wireType ≠ kind.wireType) :
    readLeaf s kind content = .foreign := by
  cases kind with
  | scalar kind =>
    cases kind <;> cases content <;> first | rfl | exact absurd rfl h
  | enum name =>
    cases content with
    | varint => exact absurd rfl h
    | _ => rfl
  | _ => rfl

theorem absorbRecord_foreign (h : t.Foreign (number, content)) :
    absorbRecord s nested room t m (number, content) =
      if content.depth ≤ room then some m else none := by
  cases hf : t.field? number with
  | none => simp only [absorbRecord, hf]
  | some f =>
    have htakes := h f hf
    simp only [Field.takes, Bool.or_eq_false_iff, beq_eq_false_iff_ne] at htakes
    obtain ⟨hwire, hpacked⟩ := htakes
    have hleaf := readLeaf_foreign (s := s) hwire
    cases hk : f.kind with
    | message name =>
      cases content with
      | block bytes => exact absurd (by rw [hk]; rfl) hwire
      | _ => simp only [absorbRecord, hf, hk]
    | group name =>
      cases content with
      | group body => exact absurd (by rw [hk]; rfl) hwire
      | _ => simp only [absorbRecord, hf, hk]
    | _ =>
      rw [hk] at hleaf hpacked
      simp only [absorbRecord, hf, hk, hleaf]
      split
      · rename_i hp hc
        simp [Content.wireType, hp, hc] at hpacked
      · rfl

/-- A record of a message field is read into the message that it extends. -/
theorem absorbRecord_block {bytes : Bytes} {name : String} {type : MessageType}
    (hf : t.field? number = some f) (hk : f.kind = .message name)
    (htype : s.message? name = some type) (hmap : type.isMapEntry = false) :
    absorbRecord s nested room t m (number, .block bytes) =
      (records? bytes).bind fun records => nested.bind fun read =>
        (read type (current f m) records).map fun value => put t f (.message value) m := by
  have hput (value : Message) : putMessage s t f type value m = put t f (.message value) m :=
    if_neg fun h => by simp [hmap] at h
  simp only [absorbRecord, hf, hk, htype, hmap, hput, Option.bind_eq_bind, Option.bind_some,
    Option.map_eq_bind, Bool.false_and, Bool.false_eq_true, if_false]
  rfl

end Message

end Treewire
