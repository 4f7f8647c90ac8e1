import Treewire.CommandLine.Run
import Treewire.Proofs.Documents

/-!
# Messages as documents

The JSON value of a message is legible whatever the message holds: what a JSON number cannot be is
written as a text, and no text has surrogates. So the document of a message is read as its value.
-/

namespace Treewire

theorem Text.ofChars_append (cs more : List Char) :
    ofChars (cs ++ more) = ofChars cs ++ ofChars more := List.map_append

namespace Message

open Json (Legible)

/-- A text without surrogates. -/
def Scalar (t : Text) : Prop := ∃ cs, t = Text.ofChars cs

theorem Scalar.append (h : Scalar t) (h' : Scalar u) : Scalar (t ++ u) := by
  obtain ⟨cs, rfl⟩ := h
  obtain ⟨more, rfl⟩ := h'
  exact ⟨cs ++ more, (Text.ofChars_append cs more).symm⟩

theorem scalar_quotedOctet (mark : Char) (b : UInt8) : Scalar (Text.quotedOctet mark b) := by
  unfold Text.quotedOctet
  split
  · unfold Text.quotedSymbol
    split
    · exact ⟨_, rfl⟩
    · split
      · exact ⟨[_], rfl⟩
      · exact ⟨_, rfl⟩
  · exact ⟨_, rfl⟩

theorem scalar_quotedBytes (bytes : Bytes) : Scalar (Text.quotedBytes bytes) := by
  have all (mark : Char) : Scalar (bytes.flatMap (Text.quotedOctet mark)) := by
    induction bytes with
    | nil => exact ⟨[], rfl⟩
    | cons b rest ih => exact (scalar_quotedOctet mark b).append ih
  have hfirst (mark : Char) : Scalar [.scalar 'b', .scalar mark] := ⟨['b', mark], rfl⟩
  exact (Scalar.append (hfirst _) (all _)).append ⟨[_], rfl⟩

theorem legible_ofString (s : String) : Legible (.ofString s) := .text s.toList

theorem legible_doubleJson (x : Binary64) : Legible (doubleJson x) := by
  unfold doubleJson
  split
  · rename_i hx
    exact .float hx
  · exact legible_ofString _

variable {s : Schema} {f : Field} {isMap : Field → Bool} {list : List (Field × Json)}

theorem legible_leafJson (kind : FieldKind) (v : Value) : Legible (leafJson s kind v) := by
  cases v with
  | int i =>
    cases kind with
    | enum name =>
      simp only [leafJson]
      split
      · exact legible_ofString _
      · exact .int i
    | scalar kind =>
      simp only [leafJson]
      split
      · exact legible_ofString _
      · exact .int i
    | message name => exact .int i
    | group name => exact .int i
  | bool b => exact .bool b
  | double x => exact legible_doubleJson x
  | float x => exact legible_doubleJson x.leastSix
  | string t => exact legible_ofString t
  | bytes b =>
    simp only [leafJson]
    split
    · obtain ⟨cs, hcs⟩ := scalar_quotedBytes b
      rw [hcs]
      exact .text cs
    · exact legible_ofString _
  | message m => exact .null

theorem legible_items (h : Legible (.array items)) : ∀ v ∈ items, Legible v := by
  cases h
  assumption

theorem legible_members (h : Legible (.object members)) :
    ∀ member ∈ members, Legible member.2 := by
  cases h
  assumption

theorem legible_get? {v : Json} (h : Legible v) (key : String) :
    Legible ((v.get? key).getD .null) := by
  cases hv : v.get? key with
  | none => exact .null
  | some value =>
    cases v with
    | object members =>
      obtain ⟨before, after, rfl, -⟩ := List.lookup_eq_some_iff.mp hv
      exact legible_members h (key, value) (by simp)
    | _ => cases hv

/-- Gathering puts legible values together. -/
theorem legible_gather (h : ∀ e ∈ list, Legible e.2) :
    ∀ member ∈ gather isMap list, Legible member.2 := by
  induction list with
  | nil => exact fun member hm => by cases hm
  | cons e rest ih =>
    obtain ⟨f, v⟩ := e
    obtain ⟨hv, hrest⟩ := List.forall_mem_cons.mp h
    have hmore := ih hrest
    have hpair := legible_get? hv "value"
    have hobject (members : List (String × Json)) (hm : ∀ member ∈ members, Legible member.2) :
        Legible (.object ((keyText ((v.get? "key").getD .null), (v.get? "value").getD .null) ::
          members)) :=
      .object (List.forall_mem_cons.mpr ⟨hpair, hm⟩)
    have harray (items : List Json) (hi : ∀ item ∈ items, Legible item) :
        Legible (.array (v :: items)) :=
      .array (List.forall_mem_cons.mpr ⟨hv, hi⟩)
    rw [gather]
    dsimp only
    generalize gather isMap rest = more at hmore
    split
    · split
      · obtain ⟨hfirst, hothers⟩ := List.forall_mem_cons.mp hmore
        split
        · exact List.forall_mem_cons.mpr ⟨hobject _ (legible_members hfirst), hothers⟩
        · exact List.forall_mem_cons.mpr ⟨hobject [] (by simp), hmore⟩
      · exact List.forall_mem_cons.mpr ⟨hobject [] (by simp), hmore⟩
    · split
      · split
        · obtain ⟨hfirst, hothers⟩ := List.forall_mem_cons.mp hmore
          split
          · exact List.forall_mem_cons.mpr ⟨harray _ (legible_items hfirst), hothers⟩
          · exact List.forall_mem_cons.mpr ⟨harray [] (by simp), hmore⟩
        · exact List.forall_mem_cons.mpr ⟨harray [] (by simp), hmore⟩
      · exact List.forall_mem_cons.mpr ⟨hv, hmore⟩

/-- The JSON value of a message, whatever the schema makes of its fields. -/
theorem legible_fieldsJson (s : Schema) (m : Message) :
    ∀ t, ∀ e ∈ fieldsJson s t m, Legible e.2 := by
  induction m using Message.rec
      (motive_1 := fun v => ∀ f, Legible (fieldJson s f v)) with
  | message m ih =>
    rw [fieldJson]
    split
    · exact .object (legible_gather (ih _))
    · exact .object (fun member hm => by cases hm)
  | empty => exact fun t e he => by cases he
  | entry number value rest hvalue ih =>
    intro t
    rw [fieldsJson]
    split
    · exact List.forall_mem_cons.mpr ⟨hvalue _, ih t⟩
    · exact ih t
  | _ =>
    rw [fieldJson]
    · exact legible_leafJson ..
    · exact fun m hm => by cases hm

theorem legible_toJson (s : Schema) (t : MessageType) (m : Message) : Legible (m.toJson s t) :=
  .object (legible_gather (legible_fieldsJson s m t))

end Message

namespace CommandLine

/-- What is printed for some trees is read as their values, document by document. -/
theorem documents?_printed (trees : List Decoded) :
    (Text.toString? (trees.map (printed .json)).flatten).bind Json.documents? =
      some (trees.map Decoded.toJson) := by
  have hone (d : Decoded) : printed .json d =
      Text.ofChars (Json.chars (Json.plainStyle (some 2)) 0 d.toJson ++ ['\n']) := by
    rw [printed, Json.render, Text.ofString, String.toList_ofList]
    exact (Text.ofChars_append _ ['\n']).symm
  have hall : (trees.map (printed .json)).flatten =
      Text.ofString (String.ofList ((trees.map Decoded.toJson).flatMap fun v =>
        Json.chars (Json.plainStyle (some 2)) 0 v ++ ['\n'])) := by
    rw [Text.ofString, String.toList_ofList, Text.ofChars, List.flatMap_map, List.map_flatMap,
      List.flatMap_def]
    exact congrArg List.flatten (List.map_congr_left fun d _ => hone d)
  rw [hall, Text.toString?_ofString, Option.bind_some]
  refine Json.documents?_chars _ fun v hv => ?_
  obtain ⟨d, -, rfl⟩ := List.mem_map.mp hv
  exact d.message.legible_toJson ..

end CommandLine

end Treewire
