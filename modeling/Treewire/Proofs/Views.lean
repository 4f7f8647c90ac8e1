import Treewire.Proofs.Listings

/-!
# Three views of a tree

A decoded tree can be seen as data, as a document and as a listing. All three show the same: two
trees have the same data exactly if they have the same document, exactly if they have the same
listing, and exactly if they agree on every field at every depth (`decodeTree_views`).
-/

namespace Treewire

open Schema

-- ---------------------------------------------------------------------------
-- Documents
-- ---------------------------------------------------------------------------

/-- The documents of two values of a type are equal exactly if these agree. -/
theorem Message.document_iff_agrees {s : Schema} {t : MessageType} {m n : Message}
    (hs : s.Regular) (hd : s.ImplicitDoubles) (ht : t ∈ s.messages) (hm : m.Instance s t)
    (hn : n.Instance s t) (indent : Nat) :
    m.document s t indent = n.document s t indent ↔ m.Agrees s t n := by
  constructor
  · intro h
    have hequal := Json.render_inj _ (legible_toJson s t m) (legible_toJson s t n) h
    refine (same_iff_agrees hs hd ht hm hn).mp ?_
    rw [hequal]
    exact .of_legible (legible_toJson s t n)
  · intro h
    rw [document, h.toJson_eq hs ht hm hn, document]

-- ---------------------------------------------------------------------------
-- Decoded trees
-- ---------------------------------------------------------------------------

/-- What is read off the names and the numbers of the schema of syntax trees. -/
theorem bundled_names :
    (∀ t ∈ bundled.messages, ∀ f ∈ t.fields, isName f.name.toList = true ∧
      (f.kind = .scalar .double → f.cardinality = .implicit)) ∧
    ∀ e ∈ bundled.enums, ∀ v ∈ e.values, isName v.1.toList = true := by
  decide +kernel

theorem bundled_named : bundled.Named :=
  ⟨fun t ht f hf => (bundled_names.1 t ht f hf).1, bundled_names.2⟩

theorem bundled_implicitDoubles : bundled.ImplicitDoubles :=
  fun t ht f hf => (bundled_names.1 t ht f hf).2

variable {path path' : Text} {session session' after after' : Session} {v w : Bytes}
  {x y : Decoded}

theorem ast_mem : Bundled.ast ∈ bundled.messages := by simp [bundled]

/-- A decoded tree is a value of the type of trees. -/
theorem Act.decodeTree_instance (hl : Act.Loads path session after)
    (hx : (Act.decodeTree v path session).1 = .ok x) :
    x.schema = bundled ∧ x.type = Bundled.ast ∧ x.message.Instance bundled Bundled.ast := by
  rw [Act.decodeTree_eq hl] at hx
  cases hm : Message.decode? bundled Bundled.ast v with
  | none =>
    rw [hm] at hx
    cases hx
  | some m =>
    rw [hm] at hx
    cases hx
    exact ⟨rfl, rfl, Message.decode?_instance Script.bundled_regular ast_mem hm⟩

theorem Act.decodeTree_ok_iff (hl : Act.Loads path session after) :
    (Act.decodeTree w path session).1 = .ok x ↔
      ∃ m, Message.decode? bundled Bundled.ast w = some m ∧ x = ⟨bundled, Bundled.ast, m⟩ := by
  rw [Act.decodeTree_eq hl]
  cases hm : Message.decode? bundled Bundled.ast w with
  | none => simp
  | some m => simp [eq_comm]

/-- Two decoded trees have the same data, the same document, whatever its indent, and the same
listing if they agree on every field at every depth, and none of these otherwise. -/
theorem decodeTree_views (hl : Act.Loads path session after)
    (hl' : Act.Loads path' session' after') (hx : (Act.decodeTree v path session).1 = .ok x)
    (hy : (Act.decodeTree w path' session').1 = .ok y) (indent : Nat) :
    (Json.Same x.toJson y.toJson ↔ x.document indent = y.document indent) ∧
      (x.document indent = y.document indent ↔ x.listing = y.listing) ∧
      (x.listing = y.listing ↔ x.message.Agrees bundled Bundled.ast y.message) := by
  obtain ⟨hs, ht, hm⟩ := Act.decodeTree_instance hl hx
  obtain ⟨hs', ht', hn⟩ := Act.decodeTree_instance hl' hy
  have hdata := Message.same_iff_agrees Script.bundled_regular bundled_implicitDoubles ast_mem hm hn
  have hdocument := Message.document_iff_agrees Script.bundled_regular bundled_implicitDoubles
    ast_mem hm hn indent
  have hlisting := Message.listing_iff_agrees Script.bundled_regular bundled_named ast_mem hm hn
  simp only [Decoded.toJson, Decoded.document, Decoded.listing, hs, ht, hs', ht']
  exact ⟨hdata.trans hdocument.symm, hdocument.trans hlisting.symm, hlisting⟩

namespace Message

/-- A tree whose only statement is a number literal. -/
def numeric (literal : Message) : Message :=
  .entry 1 (.message (.entry 7 (.message (.entry 1 (.message (.entry 2 (.message literal)
    .empty)) .empty)) .empty)) .empty

/-- A number literal that was set. -/
def literalOf (x : Binary64) : Message := .entry 1 (.double x) .empty

theorem literalOf_instance {x : Binary64} (h : (x.bits == 0) = false) :
    (literalOf x).Instance bundled Bundled.numberLiteral :=
  .entry rfl (by decide) rfl trivial h (fun _ h => absurd h List.not_mem_nil) .empty

theorem numeric_instance {literal : Message} (h : literal.Instance bundled Bundled.numberLiteral) :
    (numeric literal).Instance bundled Bundled.ast :=
  have hstatement := message?_of_mem (t := Bundled.statement) (by simp [bundled]) rfl
  have hwrapped := message?_of_mem (t := Bundled.expressionStatement) (by simp [bundled]) rfl
  have hexpression := message?_of_mem (t := Bundled.expression) (by simp [bundled]) rfl
  have hliteral := message?_of_mem (t := Bundled.numberLiteral) (by simp [bundled]) rfl
  .only rfl (by decide) rfl hstatement rfl (.only rfl (by decide) rfl hwrapped rfl
    (.only rfl (by decide) rfl hexpression rfl (.only rfl (by decide) rfl hliteral rfl h)))

theorem numeric_decodes {literal : Message} (h : literal.Instance bundled Bundled.numberLiteral)
    (hw : (numeric literal).octets.length < 0x80000000)
    (hd : (numeric literal).depth ≤ depthLimit) :
    (Act.decodeTree (numeric literal).octets informedPath .informed).1 =
      .ok ⟨bundled, Bundled.ast, numeric literal⟩ := by
  rw [Act.decodeTree_eq Session.informed_loads,
    (numeric_instance h).decode? (serialize?_eq_some.mpr ⟨hw, rfl⟩), if_pos hd]

end Message

open Message in
/-- A NaN in place of another changes no view of a tree, and a negative zero in place of a zero
changes all. -/
theorem numbers_viewed :
    let tree literal : Decoded := ⟨bundled, Bundled.ast, numeric literal⟩
    let read literal := (Act.decodeTree (numeric literal).octets informedPath .informed).1
    let nan : Message := literalOf ⟨0x7FF8000000000000⟩
    let other : Message := literalOf ⟨0xFFF8000000000001⟩
    let zero : Message := .empty
    let minus : Message := literalOf ⟨0x8000000000000000⟩
    Act.Loads informedPath .informed .informed ∧
      (read nan = .ok (tree nan) ∧ read other = .ok (tree other) ∧
        Json.Same (tree nan).toJson (tree other).toJson ∧
          (tree nan).document 2 = (tree other).document 2 ∧
            (tree nan).listing = (tree other).listing) ∧
      read zero = .ok (tree zero) ∧ read minus = .ok (tree minus) ∧
        ¬Json.Same (tree zero).toJson (tree minus).toJson ∧
          (tree zero).document 2 ≠ (tree minus).document 2 ∧
            (tree zero).listing ≠ (tree minus).listing := by
  intro tree read nan other zero minus
  have hnan : nan.Instance bundled Bundled.numberLiteral := literalOf_instance rfl
  have hother : other.Instance bundled Bundled.numberLiteral := literalOf_instance rfl
  have hzero : zero.Instance bundled Bundled.numberLiteral := .empty
  have hminus : minus.Instance bundled Bundled.numberLiteral := literalOf_instance rfl
  have hreadNan : read nan = .ok (tree nan) := numeric_decodes hnan (by decide) (by decide)
  have hreadOther : read other = .ok (tree other) := numeric_decodes hother (by decide) (by decide)
  have hreadZero : read zero = .ok (tree zero) := numeric_decodes hzero (by decide) (by decide)
  have hreadMinus : read minus = .ok (tree minus) := numeric_decodes hminus (by decide) (by decide)
  obtain ⟨hdata, hdocument, hlisting⟩ :=
    decodeTree_views Session.informed_loads Session.informed_loads hreadNan hreadOther 2
  obtain ⟨hdata', hdocument', hlisting'⟩ :=
    decodeTree_views Session.informed_loads Session.informed_loads hreadZero hreadMinus 2
  have hsame : (numeric nan).Agrees bundled Bundled.ast (numeric other) :=
    (agrees_iff_leveled Script.bundled_regular ast_mem (numeric_instance hnan)
      (numeric_instance hother)).mpr rfl
  have hapart : ¬(numeric zero).Agrees bundled Bundled.ast (numeric minus) := by
    rw [agrees_iff_leveled Script.bundled_regular ast_mem (numeric_instance hzero)
      (numeric_instance hminus)]
    intro h
    cases h
  have hl := hlisting.mpr hsame
  have hl' : ¬(tree zero).listing = (tree minus).listing := fun h => hapart (hlisting'.mp h)
  have hd' : ¬(tree zero).document 2 = (tree minus).document 2 := fun h => hl' (hdocument'.mp h)
  exact ⟨Session.informed_loads,
    ⟨hreadNan, hreadOther, hdata.mpr (hdocument.mpr hl), hdocument.mpr hl, hl⟩,
    hreadZero, hreadMinus, fun h => hd' (hdata'.mp h), hd', hl'⟩

end Treewire
