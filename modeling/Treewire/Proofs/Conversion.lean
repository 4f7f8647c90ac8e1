import Treewire.Proofs.Converted
import Treewire.Proofs.Typing
import Treewire.Proofs.WellFormed

/-!
# Conversion gives instances

`form_is_ast`: what a well-formed script is converted to is an instance of the message of whole
trees, and so are all its parts of the messages at their positions. The proof goes through the
conversion position by position; each lemma reads one function's success as the type of its result.
-/

namespace Treewire.Script

open Schema

-- ---------------------------------------------------------------------------
-- Members
-- ---------------------------------------------------------------------------

variable {s : Schema} {t : MessageType} {n : Node}

/-- Members for what may be absent. -/
theorem MembersFit.optionally (hd : t.Declares i key slot)
    (h : optionally key n convert = .ok members)
    (hx : ∀ x, convert () = .ok x → Form.Fits s slot x) : MembersFit s t [i] members := by
  unfold Script.optionally at h
  split at h
  · rw [← pure_ok.mp h]
    exact .skip .nil
  · simp only [bind_ok, pure_ok] at h
    obtain ⟨x, hc, rfl⟩ := h
    exact .one hd (hx x hc)

/-- Members for a text that may be missing. -/
theorem MembersFit.optional (hd : t.Declares i key (.one (.scalar .string))) {value : Option Text} :
    MembersFit s t [i] (Form.optional key (value.map .text)) := by
  cases value with
  | none => exact .skip .nil
  | some v => exact .one hd .text

theorem MembersFit.nameMember (hd : t.Declares i key (.one (.scalar .string)))
    (h : nameMember key n = .ok members) : MembersFit s t [i] members := by
  unfold Script.nameMember at h
  split at h
  · simp at h
  · rw [← pure_ok.mp h]
    exact .optional hd

theorem MembersFit.nameOrEmpty (hd : t.Declares i "name" (.one (.scalar .string))) :
    MembersFit s t [i] (nameOrEmpty n) := by
  unfold Script.nameOrEmpty
  split
  · exact .one hd .text
  · exact .optional hd

theorem MembersFit.labelMember (hd : t.Declares i "label" (.one (.scalar .string))) :
    MembersFit s t [i] (labelMember n) := by
  unfold Script.labelMember
  split
  · exact .skip .nil
  · exact .optional hd

theorem flags_fit (flags : FunctionFlags) :
    Form.Fits bundled (.one (.enum (Bundled.qualified "FunctionType"))) flags.form := by
  obtain ⟨async, generator⟩ := flags
  have he := bundled_enum? Bundled.functionType (by simp [bundled])
  cases async <;> cases generator
  · exact .choice (n := 0) he (by simp [Bundled.functionType])
  · exact .choice (n := 1) he (by simp [Bundled.functionType])
  · exact .choice (n := 2) he (by simp [Bundled.functionType])
  · exact .choice (n := 3) he (by simp [Bundled.functionType])

/-- A single member never clashes with another. -/
theorem agree_singleton (hd : t.Declares i key slot) : t.agree [i] = true := by
  obtain ⟨f, hf, -⟩ := hd
  simp [MessageType.agree, isDistinct, hf, MessageType.excludes]

/-- One of the alternatives of a message that is a choice. -/
theorem is_statement (i : Nat) (hd : Bundled.statement.Declares i key slot)
    (hx : Form.Fits bundled slot x) : Is Bundled.statement (.record [(key, x)]) :=
  is_record _ _ (by simp [bundled]) (agree_singleton hd) (.one hd hx)

theorem is_expression (i : Nat) (hd : Bundled.expression.Declares i key slot)
    (hx : Form.Fits bundled slot x) : Is Bundled.expression (.record [(key, x)]) :=
  is_record _ _ (by simp [bundled]) (agree_singleton hd) (.one hd hx)

theorem is_objectField (i : Nat) (hd : Bundled.objectField.Declares i key slot)
    (hx : Form.Fits bundled slot x) : Is Bundled.objectField (.record [(key, x)]) :=
  is_record _ _ (by simp [bundled]) (agree_singleton hd) (.one hd hx)

-- ---------------------------------------------------------------------------
-- What each position gives
-- ---------------------------------------------------------------------------

/-- What a node is converted to, position by position. -/
structure Node.Gives (n : Node) : Prop where
  statement : Script.statement n = .ok x → Is Bundled.statement x
  expression : Script.expression n = .ok x → Is Bundled.expression x
  parameter : Script.parameter n = .ok x → Is Bundled.parameter x
  declarator : Script.declarator n = .ok x → Is Bundled.variableDeclarator x
  field : Script.objectField n = .ok x → Is Bundled.objectField x
  target : loopTarget n = .ok x → Is Bundled.variableDeclarator x
  block : blockBody n = .ok xs → Are Bundled.statement xs
  declarations : Script.declarations n = .ok xs → Are Bundled.variableDeclarator xs
  handler : catchMember n = .ok members →
    MembersFit bundled Bundled.tryStatement [2] members
  members : Script.classBody n = .ok (properties, methods) →
    Are Bundled.classProperty properties ∧ Are Bundled.classMethod methods

/-- What is supposed of the children of a node. -/
abbrev Node.Sound : Node → Prop := Node.Supposed Node.complete Node.Gives

-- ---------------------------------------------------------------------------
-- Lists
-- ---------------------------------------------------------------------------

theorem statements_are {ns : List Node} (ih : ∀ n ∈ ns, n.Gives) (h : statements ns = .ok xs) :
    Are Bundled.statement xs := by
  rw [statements_eq_mapM, mapM_ok] at h
  exact h.forall fun n hn _ => (ih n hn).statement

theorem expressions_are {ns : List Node} (ih : ∀ n ∈ ns, n.Gives)
    (h : expressions ns = .ok xs) : Are Bundled.expression xs := by
  rw [expressions_eq_mapM, mapM_ok] at h
  exact h.forall fun n hn _ => (ih n hn).expression

theorem parameters_are {ns : List Node} (ih : ∀ n ∈ ns, n.Gives) (h : parameters ns = .ok xs) :
    Are Bundled.parameter xs := by
  rw [parameters_eq_mapM, mapM_ok] at h
  exact h.forall fun n hn _ => (ih n hn).parameter

theorem declarators_are {ns : List Node} (ih : ∀ n ∈ ns, n.Gives)
    (h : declarators ns = .ok xs) : Are Bundled.variableDeclarator xs := by
  rw [declarators_eq_mapM, mapM_ok] at h
  exact h.forall fun n hn _ => (ih n hn).declarator

theorem objectFields_are {ns : List Node} (ih : ∀ n ∈ ns, n.Gives)
    (h : objectFields ns = .ok xs) : Are Bundled.objectField xs := by
  rw [objectFields_eq_mapM, mapM_ok] at h
  exact h.forall fun n hn _ => (ih n hn).field

/-- A hole is an expression of which nothing is said. -/
theorem elements_are {ns : List Node} (ih : ∀ n ∈ ns, n.Gives) (h : elements ns = .ok xs) :
    Are Bundled.expression xs := by
  rw [elements_eq_mapM, mapM_ok] at h
  refine h.forall fun n hn x hx => ?_
  unfold element at hx
  split at hx
  · rw [← pure_ok.mp hx]
    exact is_record _ [] (by simp [bundled]) rfl .nil
  · exact (ih n hn).expression hx

theorem switchCases_are {ns : List Node} (ih : ∀ n ∈ ns, n.Sound)
    (h : switchCases ns = .ok xs) : Are Bundled.switchCase xs := by
  rw [switchCases_eq_mapM, mapM_ok] at h
  refine h.forall fun n hn x hx => ?_
  have ih := (ih n hn).deeper
  unfold switchCase at hx
  split at hx
  · rename_i test consequent
    simp only [Node.children, List.forall_mem_cons] at ih
    obtain ⟨ihtest, ihconsequent⟩ := ih
    simp only [bind_ok, pure_ok] at hx
    obtain ⟨xs, hxs, members, hm, rfl⟩ := hx
    have hxs := statements_are (Node.Supposed.all ihconsequent) hxs
    exact is_record _ [2, 1] (by simp [bundled]) rfl
      (.cons (declares rfl) (.list hxs)
        (.optionally (declares rfl) hm fun _ => ihtest.self.expression))
  · simp at hx

theorem templateParts_fit {ns : List Node} (h : templateParts ns = .ok xs) :
    ∀ x ∈ xs, Form.Fits s (.one (.scalar .string)) x := by
  induction ns generalizing xs with
  | nil =>
    rw [templateParts, pure_ok] at h
    simp [← h]
  | cons n rest ih =>
    cases n <;> simp only [templateParts, bind_ok, pure_ok, throw_ok] at h
    obtain ⟨xs, hxs, rfl⟩ := h
    exact List.forall_mem_cons.mpr ⟨.text, ih hxs⟩

-- ---------------------------------------------------------------------------
-- Parts of nodes
-- ---------------------------------------------------------------------------

theorem functionBody_are (ih : n.Gives)
    (h : functionBody n (fun _ => blockBody n) (fun _ => statement n) = .ok xs) :
    Are Bundled.statement xs := by
  unfold functionBody at h
  split at h
  · exact ih.block h
  · simp only [bind_ok, pure_ok] at h
    obtain ⟨x, hx, rfl⟩ := h
    exact List.forall_mem_singleton.mpr (ih.statement hx)

/-- The three forms of a key. -/
theorem propertyKey_cases (h : propertyKey computed key convert = .ok members) :
    (∃ x, convert () = .ok x ∧ members = [("expression", x)]) ∨
      (∃ name, members = [("name", .text name)]) ∨
      ∃ x i, x.toInt? = some i ∧ members = [("index", .number x)] := by
  unfold propertyKey at h
  split at h
  · simp only [bind_ok, pure_ok] at h
    obtain ⟨x, hx, rfl⟩ := h
    exact .inl ⟨x, hx, rfl⟩
  · unfold plainKey at h
    split at h
    · exact .inr (.inl ⟨_, (pure_ok.mp h).symm⟩)
    · exact .inr (.inl ⟨_, (pure_ok.mp h).symm⟩)
    · rename_i x
      rw [pure_ok] at h
      cases hx : x.toInt? with
      | none => exact .inr (.inl ⟨_, by rw [← h, hx]; rfl⟩)
      | some i => exact .inr (.inr ⟨x, i, hx, by rw [← h, hx]; rfl⟩)
    · simp at h

/-- A method has no index, so an index becomes a name. -/
theorem nameOnly_cases (h : propertyKey computed key convert = .ok members) :
    (∃ x, convert () = .ok x ∧ nameOnly members = [("expression", x)]) ∨
      ∃ name, nameOnly members = [("name", .text name)] := by
  rcases propertyKey_cases h with ⟨x, hx, rfl⟩ | ⟨name, rfl⟩ | ⟨x, i, -, rfl⟩
  · exact .inl ⟨x, hx, rfl⟩
  · exact .inr ⟨name, rfl⟩
  · exact .inr ⟨_, rfl⟩

theorem declarationMembers_fit {m : Node} (hk : Node.declarationKinds.contains kind = true)
    (hd : ∀ xs, convert () = .ok xs → Are Bundled.variableDeclarator xs)
    (h : declarationMembers m kind convert = .ok members) :
    Is Bundled.variableDeclaration (.record members) := by
  unfold declarationMembers at h
  split at h
  · simp at h
  · rename_i found hf
    simp only [bind_ok, pure_ok] at h
    obtain ⟨xs, hxs, rfl⟩ := h
    have he := bundled_enum? Bundled.variableDeclarationKind (by simp [bundled])
    have hm : MembersFit bundled Bundled.variableDeclaration [1] found := by
      simp only [Node.declarationKinds, List.map_cons, List.map_nil, List.contains_iff_mem,
        List.mem_cons, List.not_mem_nil, or_false] at hk
      rcases hk with rfl | rfl | rfl | rfl | rfl <;>
        simp only [declarationKind?, Text.toString?_ofString, Option.some.injEq] at hf
      · subst hf
        exact .one (declares rfl) (.choice (n := 0) he (by simp [Bundled.variableDeclarationKind]))
      · subst hf
        exact .one (declares rfl) (.choice (n := 1) he (by simp [Bundled.variableDeclarationKind]))
      · subst hf
        exact .one (declares rfl) (.choice (n := 2) he (by simp [Bundled.variableDeclarationKind]))
      · simp [inheritedNames] at hf
      · simp [inheritedNames] at hf
    exact is_record _ [1, 2] (by simp [bundled]) rfl
      (hm.append (.one (declares rfl) (.list (hd xs hxs))))

theorem loopStart_cases {m : Node}
    (h : loopStart m (fun _ => declarations m) (fun _ => expression m) = .ok members) :
    members = [] ∨ (∃ x, expression m = .ok x ∧ members = [("expression", x)]) ∨
      ∃ p kind list declared, m = .variableDeclaration p kind list ∧
        declarationMembers m kind (fun _ => declarations m) = .ok declared ∧
        members = [("declaration", .record declared)] := by
  unfold loopStart at h
  split at h
  · exact .inl (pure_ok.mp h).symm
  · simp only [bind_ok, pure_ok] at h
    obtain ⟨declared, hd, rfl⟩ := h
    exact .inr (.inr ⟨_, _, _, declared, rfl, hd, rfl⟩)
  · simp only [bind_ok, pure_ok] at h
    obtain ⟨x, hx, rfl⟩ := h
    exact .inr (.inl ⟨x, hx, rfl⟩)

-- ---------------------------------------------------------------------------
-- Bindings
-- ---------------------------------------------------------------------------

theorem parameter_is (ih : ∀ c ∈ n.children, c.Sound) (h : parameter n = .ok x) :
    Is Bundled.parameter x := by
  unfold parameter at h
  split at h
  · rw [← pure_ok.mp h]
    exact is_record _ [1] (by simp [bundled]) rfl (.one (declares rfl) .text)
  · simp only [Node.children, List.forall_mem_cons] at ih
    obtain ⟨-, ihright, -⟩ := ih
    simp only [bind_ok, pure_ok] at h
    obtain ⟨y, hy, rfl⟩ := h
    exact is_record _ [1, 2] (by simp [bundled]) rfl
      (.cons (declares rfl) .text (.one (declares rfl) (ihright.self.expression hy)))
  · simp at h
  · rw [← pure_ok.mp h]
    exact is_record _ [1, 3] (by simp [bundled]) rfl
      (.cons (declares rfl) .text (.one (declares rfl) .bool))
  · simp at h
  · simp at h

theorem declarator_is (ih : ∀ c ∈ n.children, c.Sound) (h : declarator n = .ok x) :
    Is Bundled.variableDeclarator x := by
  unfold declarator at h
  split at h
  · simp only [Node.children, List.forall_mem_cons] at ih
    obtain ⟨-, ihinit, -⟩ := ih
    simp only [bind_ok, pure_ok] at h
    obtain ⟨members, hm, rfl⟩ := h
    exact is_record _ [1, 2] (by simp [bundled]) rfl
      (.cons (declares rfl) .text (.optionally (declares rfl) hm fun _ => ihinit.self.expression))
  · simp at h
  · simp at h

theorem loopTarget_is (ih : ∀ c ∈ n.children, c.Sound) (h : loopTarget n = .ok x) :
    Is Bundled.variableDeclarator x := by
  unfold loopTarget at h
  split at h
  · rename_i declaration
    exact (ih declaration List.mem_cons_self).self.declarator h
  · rw [← pure_ok.mp h]
    exact is_record _ [1] (by simp [bundled]) rfl (.one (declares rfl) .text)
  · simp at h

theorem declarations_are (ih : ∀ c ∈ n.children, c.Sound) (h : declarations n = .ok xs) :
    Are Bundled.variableDeclarator xs := by
  cases n <;> simp only [declarations, throw_ok] at h
  case variableDeclaration list => exact declarators_are (Node.Supposed.all ih) h

theorem blockBody_are (ih : ∀ c ∈ n.children, c.Sound) (h : blockBody n = .ok xs) :
    Are Bundled.statement xs := by
  cases n <;> simp only [blockBody, throw_ok] at h
  case blockStatement body => exact statements_are (Node.Supposed.all ih) h
  case classBody body => exact statements_are (Node.Supposed.all ih) h

theorem catchMember_fit (ih : ∀ c ∈ n.children, c.Sound) (h : catchMember n = .ok members) :
    MembersFit bundled Bundled.tryStatement [2] members := by
  cases n <;> simp only [catchMember, throw_ok, bind_ok, pure_ok] at h
  case absent =>
    subst h
    exact .skip .nil
  case catchClause param body =>
    simp only [Node.children, List.forall_mem_cons] at ih
    obtain ⟨ihparam, ihbody, -⟩ := ih
    obtain ⟨xs, hxs, found, hf, rfl⟩ := h
    have hclause : Is Bundled.catchClause (.record (("body", .list xs) :: found)) :=
      is_record _ [2, 1] (by simp [bundled]) rfl
        (.cons (declares rfl) (.list (ihbody.self.block hxs))
          (.optionally (declares rfl) hf fun _ => ihparam.self.parameter))
    exact .one (declares rfl) hclause

-- ---------------------------------------------------------------------------
-- Fields of object literals
-- ---------------------------------------------------------------------------

theorem objectProperty_is {key : Node} (hk : key.Gives) (hv : Is Bundled.expression v)
    (hm : propertyKey computed key (fun _ => expression key) = .ok members) :
    Is Bundled.objectProperty (.record (("value", v) :: members)) := by
  rcases propertyKey_cases hm with ⟨y, hy, rfl⟩ | ⟨name, rfl⟩ | ⟨y, i, hi, rfl⟩
  · exact is_record _ [4, 3] (by simp [bundled]) rfl
      (.cons (declares rfl) hv (.one (declares rfl) (hk.expression hy)))
  · exact is_record _ [4, 1] (by simp [bundled]) rfl
      (.cons (declares rfl) hv (.one (declares rfl) .text))
  · exact is_record _ [4, 2] (by simp [bundled]) rfl
      (.cons (declares rfl) hv (.one (declares rfl) (.index hi)))

theorem objectField_is (ih : ∀ c ∈ n.children, c.Sound) (h : objectField n = .ok x) :
    Is Bundled.objectField x := by
  cases n <;> simp only [objectField, bind_ok, pure_ok, refuseAt_ok] at h <;>
    simp only [Node.children, List.forall_mem_cons] at ih
  case objectProperty key value =>
    obtain ⟨ihkey, ihvalue, -⟩ := ih
    obtain ⟨v, hv, members, hm, rfl⟩ := h
    exact is_objectField 1 (declares rfl)
      (objectProperty_is ihkey.self (ihvalue.self.expression hv) hm)
  case objectMethod kind flags key params body =>
    obtain ⟨ihkey, ihbody, ihparams⟩ := ih
    obtain ⟨members, hm, ps, hps, xs, hxs, rfl⟩ := h
    have hps := parameters_are (Node.Supposed.all ihparams) hps
    have hxs := functionBody_are ihbody.self hxs
    have hrest : MembersFit bundled Bundled.objectMethod [3, 4, 5, 6] [("kind", .text kind),
        ("type", flags.form), ("parameters", .list ps), ("body", .list xs)] :=
      .cons (declares rfl) .text (.cons (declares rfl) (flags_fit flags)
        (.cons (declares rfl) (.list hps) (.one (declares rfl) (.list hxs))))
    rcases nameOnly_cases hm with ⟨y, hy, he⟩ | ⟨name, he⟩
    · rw [he]
      exact is_objectField 2 (declares rfl) (is_record Bundled.objectMethod [2, 3, 4, 5, 6]
        (by simp [bundled]) rfl (.cons (declares rfl) (ihkey.self.expression hy) hrest))
    · rw [he]
      exact is_objectField 2 (declares rfl) (is_record Bundled.objectMethod [1, 3, 4, 5, 6]
        (by simp [bundled]) rfl (.cons (declares rfl) .text hrest))
  case spreadElement argument =>
    obtain ⟨ihargument, -⟩ := ih
    obtain ⟨y, hy, rfl⟩ := h
    exact is_objectField 3 (declares rfl) (ihargument.self.expression hy)

-- ---------------------------------------------------------------------------
-- Members of classes
-- ---------------------------------------------------------------------------

theorem classProperty_is {key value : Node} (hk : key.Gives) (hv : value.Gives)
    (hm : propertyKey computed key (fun _ => expression key) = .ok named)
    (ho : Script.optionally "value" value (fun _ => expression value) = .ok valued) :
    Is Bundled.classProperty (.record (("isStatic", .bool isStatic) :: named ++ valued)) := by
  have hvalued : MembersFit bundled Bundled.classProperty [5] valued :=
    .optionally (declares rfl) ho fun _ => hv.expression
  rcases propertyKey_cases hm with ⟨y, hy, rfl⟩ | ⟨name, rfl⟩ | ⟨y, i, hi, rfl⟩
  · exact is_record _ [4, 3, 5] (by simp [bundled]) rfl
      (.cons (declares rfl) .bool (.cons (declares rfl) (hk.expression hy) hvalued))
  · exact is_record _ [4, 1, 5] (by simp [bundled]) rfl
      (.cons (declares rfl) .bool (.cons (declares rfl) .text hvalued))
  · exact is_record _ [4, 2, 5] (by simp [bundled]) rfl
      (.cons (declares rfl) .bool (.cons (declares rfl) (.index hi) hvalued))

theorem classMembers_are {ns : List Node} (ih : ∀ n ∈ ns, n.Sound)
    (h : classMembers ns = .ok (properties, methods)) :
    Are Bundled.classProperty properties ∧ Are Bundled.classMethod methods := by
  induction ns generalizing properties methods with
  | nil =>
    cases pure_ok.mp h
    exact ⟨nofun, nofun⟩
  | cons n rest hrest =>
    rw [List.forall_mem_cons] at ih
    obtain ⟨⟨-, -, ihn⟩, ihrest⟩ := ih
    cases n <;> simp only [classMembers, bind_ok, pure_ok, refuseAt_ok] at h <;>
      simp only [Node.children, List.forall_mem_cons] at ihn
    case classProperty key value =>
      obtain ⟨ihkey, ihvalue, -⟩ := ihn
      obtain ⟨named, hn, valued, hvd, ⟨ps, ms⟩, hr, he⟩ := h
      cases he
      obtain ⟨hps, hms⟩ := hrest ihrest hr
      exact ⟨List.forall_mem_cons.mpr ⟨classProperty_is ihkey.self ihvalue.self hn hvd, hps⟩, hms⟩
    case classMethod computed _ _ key params body =>
      obtain ⟨-, ihbody, ihparams⟩ := ihn
      cases computed
      · simp only [Bool.false_eq_true, ↓reduceIte, bind_ok, pure_ok] at h
        obtain ⟨name, -, ps, hps, xs, hxs, ⟨others, ms⟩, hr, he⟩ := h
        cases he
        obtain ⟨hos, hms⟩ := hrest ihrest hr
        have hps := parameters_are (Node.Supposed.all ihparams) hps
        have hxs := functionBody_are ihbody.self hxs
        refine ⟨hos, List.forall_mem_cons.mpr ⟨?_, hms⟩⟩
        exact is_record _ [1, 2, 3, 4, 5] (by simp [bundled]) rfl
          (.cons (declares rfl) .text (.cons (declares rfl) .bool (.cons (declares rfl) .text
            (.cons (declares rfl) (.list hps) (.one (declares rfl) (.list hxs))))))
      · simp at h

theorem classBody_are (ih : ∀ c ∈ n.children, c.Sound)
    (h : classBody n = .ok (properties, methods)) :
    Are Bundled.classProperty properties ∧ Are Bundled.classMethod methods := by
  cases n <;> simp only [classBody, throw_ok] at h
  case classBody body => exact classMembers_are ih h
  case blockStatement body => exact classMembers_are ih h

-- ---------------------------------------------------------------------------
-- Statements
-- ---------------------------------------------------------------------------

theorem statement_is (hc : n.complete = true) (ih : ∀ c ∈ n.children, c.Sound)
    (h : statement n = .ok x) : Is Bundled.statement x := by
  cases n <;> simp only [statement, bind_ok, pure_ok, refuseAt_ok] at h <;>
    simp only [Node.children, List.forall_mem_cons] at ih
  case emptyStatement =>
    subst h
    exact is_statement 1 (declares rfl)
      (is_record Bundled.emptyStatement [] (by simp [bundled]) rfl .nil)
  case blockStatement body =>
    obtain ⟨xs, hxs, rfl⟩ := h
    exact is_statement 2 (declares rfl)
      (is_record Bundled.blockStatement [1] (by simp [bundled]) rfl
        (.one (declares rfl) (.list (statements_are (Node.Supposed.all ih) hxs))))
  case variableDeclaration list =>
    obtain ⟨members, hm, rfl⟩ := h
    simp only [Node.complete, Bool.and_eq_true] at hc
    exact is_statement 3 (declares rfl)
      (declarationMembers_fit hc.1 (fun _ => declarators_are (Node.Supposed.all ih)) hm)
  case functionDeclaration id params body =>
    obtain ⟨-, ihbody, ihparams⟩ := ih
    obtain ⟨name, hn, ps, hps, xs, hxs, rfl⟩ := h
    have hname : MembersFit bundled Bundled.functionDeclaration [1] name :=
      .nameMember (declares rfl) hn
    have hps := parameters_are (Node.Supposed.all ihparams) hps
    have hxs := functionBody_are ihbody.self hxs
    exact is_statement 4 (declares rfl)
      (is_record Bundled.functionDeclaration [1, 2, 3, 4] (by simp [bundled]) rfl
        (hname.append (.cons (declares rfl) (flags_fit _) (.cons (declares rfl) (.list hps)
          (.one (declares rfl) (.list hxs))))))
  case classDeclaration id superClass body =>
    obtain ⟨-, ihsuper, ihbody, -⟩ := ih
    obtain ⟨parent, hp, ⟨properties, methods⟩, hm, rfl⟩ := h
    obtain ⟨hps, hms⟩ := ihbody.self.members hm
    have hname : MembersFit bundled Bundled.classDeclaration [1] (nameOrEmpty id) :=
      .nameOrEmpty (declares rfl)
    have hparent : MembersFit bundled Bundled.classDeclaration [2] parent :=
      .optionally (declares rfl) hp fun _ => ihsuper.self.expression
    have hmembers : MembersFit bundled Bundled.classDeclaration [3, 4]
        [("properties", .list properties), ("methods", .list methods)] :=
      .cons (declares rfl) (.list hps) (.one (declares rfl) (.list hms))
    exact is_statement 5 (declares rfl)
      (is_record Bundled.classDeclaration [1, 3, 4, 2] (by simp [bundled]) rfl
        ((hname.append hmembers).append hparent))
  case returnStatement argument =>
    obtain ⟨ihargument, -⟩ := ih
    obtain ⟨members, hm, rfl⟩ := h
    exact is_statement 6 (declares rfl)
      (is_record Bundled.returnStatement [1] (by simp [bundled]) rfl
        (.optionally (declares rfl) hm fun _ => ihargument.self.expression))
  case expressionStatement e =>
    obtain ⟨ihe, -⟩ := ih
    obtain ⟨y, hy, rfl⟩ := h
    exact is_statement 7 (declares rfl)
      (is_record Bundled.expressionStatement [1] (by simp [bundled]) rfl
        (.one (declares rfl) (ihe.self.expression hy)))
  case ifStatement test consequent alternate =>
    obtain ⟨ihtest, ihconsequent, ihalternate, -⟩ := ih
    obtain ⟨t, ht, yes, hy, no, hn, rfl⟩ := h
    have hyes : MembersFit bundled Bundled.ifStatement [1, 2] [("test", t), ("ifBody", yes)] :=
      .cons (declares rfl) (ihtest.self.expression ht)
        (.one (declares rfl) (ihconsequent.self.statement hy))
    exact is_statement 8 (declares rfl)
      (is_record Bundled.ifStatement [1, 2, 3] (by simp [bundled]) rfl
        (hyes.append (.optionally (declares rfl) hn fun _ => ihalternate.self.statement)))
  case whileStatement test body =>
    obtain ⟨ihtest, ihbody, -⟩ := ih
    obtain ⟨t, ht, b, hb, rfl⟩ := h
    exact is_statement 9 (declares rfl)
      (is_record Bundled.whileLoop [1, 2] (by simp [bundled]) rfl
        (.cons (declares rfl) (ihtest.self.expression ht)
          (.one (declares rfl) (ihbody.self.statement hb))))
  case doWhileStatement body test =>
    obtain ⟨ihbody, ihtest, -⟩ := ih
    obtain ⟨b, hb, t, ht, rfl⟩ := h
    exact is_statement 10 (declares rfl)
      (is_record Bundled.doWhileLoop [1, 2] (by simp [bundled]) rfl
        (.cons (declares rfl) (ihbody.self.statement hb)
          (.one (declares rfl) (ihtest.self.expression ht))))
  case forStatement init test update body =>
    obtain ⟨ihinit, ihtest, ihupdate, ihbody, -⟩ := ih
    obtain ⟨b, hb, start, hs, condition, ht, step, hu, rfl⟩ := h
    have hbody : Is Bundled.statement b := ihbody.self.statement hb
    have hcondition : MembersFit bundled Bundled.forLoop [3] condition :=
      .optionally (declares rfl) ht fun _ => ihtest.self.expression
    have hrest : MembersFit bundled Bundled.forLoop [3, 4] (condition ++ step) :=
      hcondition.append (.optionally (declares rfl) hu fun _ => ihupdate.self.expression)
    rw [List.append_assoc]
    -- The start decides which member of its oneof is there, if any is.
    rcases loopStart_cases hs with rfl | ⟨y, hy, rfl⟩ | ⟨p, kind, list, members, rfl, hm, rfl⟩
    · exact is_statement 11 (declares rfl)
        (is_record Bundled.forLoop [5, 3, 4] (by simp [bundled]) rfl
          (.cons (declares rfl) hbody hrest))
    · exact is_statement 11 (declares rfl)
        (is_record Bundled.forLoop [5, 2, 3, 4] (by simp [bundled]) rfl
          (.cons (declares rfl) hbody (.cons (declares rfl) (ihinit.self.expression hy) hrest)))
    · have hkind := ihinit.holds
      simp only [Node.complete, Bool.and_eq_true] at hkind
      have hdecl : Is Bundled.variableDeclaration (.record members) :=
        declarationMembers_fit hkind.1 (fun _ => ihinit.self.declarations) hm
      exact is_statement 11 (declares rfl)
        (is_record Bundled.forLoop [5, 1, 3, 4] (by simp [bundled]) rfl
          (.cons (declares rfl) hbody (.cons (declares rfl) hdecl hrest)))
  case forInStatement left right body =>
    obtain ⟨ihleft, ihright, ihbody, -⟩ := ih
    obtain ⟨l, hl, r, hr, b, hb, rfl⟩ := h
    exact is_statement 12 (declares rfl)
      (is_record Bundled.forInLoop [1, 2, 3] (by simp [bundled]) rfl
        (.cons (declares rfl) (ihleft.self.target hl) (.cons (declares rfl) (ihright.self.expression hr)
          (.one (declares rfl) (ihbody.self.statement hb)))))
  case forOfStatement left right body =>
    obtain ⟨ihleft, ihright, ihbody, -⟩ := ih
    obtain ⟨l, hl, r, hr, b, hb, rfl⟩ := h
    exact is_statement 13 (declares rfl)
      (is_record Bundled.forOfLoop [1, 2, 3] (by simp [bundled]) rfl
        (.cons (declares rfl) (ihleft.self.target hl) (.cons (declares rfl) (ihright.self.expression hr)
          (.one (declares rfl) (ihbody.self.statement hb)))))
  case breakStatement =>
    subst h
    exact is_statement 14 (declares rfl)
      (is_record Bundled.breakStatement [1] (by simp [bundled]) rfl (.labelMember (declares rfl)))
  case continueStatement =>
    subst h
    exact is_statement 15 (declares rfl)
      (is_record Bundled.continueStatement [1] (by simp [bundled]) rfl
        (.labelMember (declares rfl)))
  case tryStatement block handler finalizer =>
    obtain ⟨ihblock, ihhandler, ihfinalizer, -⟩ := ih
    obtain ⟨xs, hxs, caught, hh, final, hf, rfl⟩ := h
    have hcaught := ihhandler.self.handler hh
    have hclause (y) (hy : (do return Form.record [("body", .list (← blockBody finalizer))]) =
        Except.ok y) : Is Bundled.finallyClause y := by
      simp only [bind_ok, pure_ok] at hy
      obtain ⟨ys, hys, rfl⟩ := hy
      exact is_record _ [1] (by simp [bundled]) rfl
        (.one (declares rfl) (.list (ihfinalizer.self.block hys)))
    exact is_statement 16 (declares rfl)
      (is_record Bundled.tryStatement [1, 2, 3] (by simp [bundled]) rfl
        (.cons (declares rfl) (.list (ihblock.self.block hxs))
          (hcaught.append (.optionally (declares rfl) hf hclause))))
  case throwStatement argument =>
    obtain ⟨ihargument, -⟩ := ih
    obtain ⟨y, hy, rfl⟩ := h
    exact is_statement 17 (declares rfl)
      (is_record Bundled.throwStatement [1] (by simp [bundled]) rfl
        (.one (declares rfl) (ihargument.self.expression hy)))
  case switchStatement discriminant cases =>
    obtain ⟨ihdiscriminant, ihcases⟩ := ih
    obtain ⟨d, hd, xs, hxs, rfl⟩ := h
    have hcases := switchCases_are ihcases hxs
    exact is_statement 18 (declares rfl)
      (is_record Bundled.switchStatement [1, 2] (by simp [bundled]) rfl
        (.cons (declares rfl) (ihdiscriminant.self.expression hd)
          (.one (declares rfl) (.list hcases))))

-- ---------------------------------------------------------------------------
-- Expressions
-- ---------------------------------------------------------------------------

theorem arrowBody_fit (ih : n.Gives)
    (h : arrowBody n (fun _ => blockBody n) (fun _ => expression n) = .ok members) :
    MembersFit bundled Bundled.arrowFunctionExpression [3] members ∨
      MembersFit bundled Bundled.arrowFunctionExpression [4] members := by
  unfold arrowBody at h
  split at h
  · simp only [bind_ok, pure_ok] at h
    obtain ⟨xs, hxs, rfl⟩ := h
    have hb : Is Bundled.statement (.wrap "blockStatement" [("body", .list xs)]) :=
      is_statement 2 (declares rfl)
        (is_record Bundled.blockStatement [1] (by simp [bundled]) rfl
          (.one (declares rfl) (.list (ih.block hxs))))
    exact .inl (.one (declares rfl) hb)
  · split at h <;> simp at h
  · simp only [bind_ok, pure_ok] at h
    obtain ⟨x, hx, rfl⟩ := h
    exact .inr (.one (declares rfl) (ih.expression hx))

theorem memberProperty_fit (ih : n.Gives)
    (h : memberProperty computed n (fun _ => expression n) = .ok members) :
    MembersFit bundled Bundled.memberExpression [3] members ∨
      MembersFit bundled Bundled.memberExpression [2] members := by
  unfold memberProperty at h
  split at h
  · simp only [bind_ok, pure_ok] at h
    obtain ⟨x, hx, rfl⟩ := h
    exact .inl (.one (declares rfl) (ih.expression hx))
  · exact .inr (.nameMember (declares rfl) h)

theorem expression_is (ih : ∀ c ∈ n.children, c.Sound) (h : expression n = .ok x) :
    Is Bundled.expression x := by
  cases n <;> simp only [expression, bind_ok, pure_ok, refuseAt_ok] at h <;>
    simp only [Node.children, List.forall_mem_cons] at ih
  case identifier =>
    subst h
    exact is_expression 1 (declares rfl)
      (is_record Bundled.identifier [1] (by simp [bundled]) rfl (.one (declares rfl) .text))
  case numericLiteral =>
    subst h
    exact is_expression 2 (declares rfl)
      (is_record Bundled.numberLiteral [1] (by simp [bundled]) rfl (.one (declares rfl) .number))
  case bigIntLiteral =>
    subst h
    exact is_expression 3 (declares rfl)
      (is_record Bundled.bigIntLiteral [1] (by simp [bundled]) rfl (.one (declares rfl) .text))
  case stringLiteral =>
    subst h
    exact is_expression 4 (declares rfl)
      (is_record Bundled.stringLiteral [1] (by simp [bundled]) rfl (.one (declares rfl) .text))
  case templateLiteral quasis values =>
    rw [List.forall_mem_append] at ih
    obtain ⟨-, ihvalues⟩ := ih
    obtain ⟨parts, hp, xs, hxs, rfl⟩ := h
    have hxs := expressions_are (Node.Supposed.all ihvalues) hxs
    exact is_expression 5 (declares rfl)
      (is_record Bundled.templateLiteral [1, 2] (by simp [bundled]) rfl
        (.cons (declares rfl) (.list (templateParts_fit hp)) (.one (declares rfl) (.list hxs))))
  case regExpLiteral =>
    subst h
    exact is_expression 6 (declares rfl)
      (is_record Bundled.regExpLiteral [1, 2] (by simp [bundled]) rfl
        (.cons (declares rfl) .text (.one (declares rfl) .text)))
  case booleanLiteral =>
    subst h
    exact is_expression 7 (declares rfl)
      (is_record Bundled.booleanLiteral [1] (by simp [bundled]) rfl (.one (declares rfl) .bool))
  case nullLiteral =>
    subst h
    exact is_expression 8 (declares rfl)
      (is_record Bundled.nullLiteral [] (by simp [bundled]) rfl .nil)
  case thisExpression =>
    subst h
    exact is_expression 9 (declares rfl)
      (is_record Bundled.thisExpression [] (by simp [bundled]) rfl .nil)
  case arrayExpression values =>
    obtain ⟨xs, hxs, rfl⟩ := h
    exact is_expression 10 (declares rfl)
      (is_record Bundled.arrayExpression [1] (by simp [bundled]) rfl
        (.one (declares rfl) (.list (elements_are (Node.Supposed.all ih) hxs))))
  case objectExpression properties =>
    obtain ⟨xs, hxs, rfl⟩ := h
    exact is_expression 11 (declares rfl)
      (is_record Bundled.objectExpression [1] (by simp [bundled]) rfl
        (.one (declares rfl) (.list (objectFields_are (Node.Supposed.all ih) hxs))))
  case functionExpression id params body =>
    obtain ⟨-, ihbody, ihparams⟩ := ih
    obtain ⟨ps, hps, xs, hxs, rfl⟩ := h
    have hname : MembersFit bundled Bundled.functionExpression [1] (nameOrEmpty id) :=
      .nameOrEmpty (declares rfl)
    have hps := parameters_are (Node.Supposed.all ihparams) hps
    have hxs := functionBody_are ihbody.self hxs
    exact is_expression 12 (declares rfl)
      (is_record Bundled.functionExpression [1, 2, 3, 4] (by simp [bundled]) rfl
        (hname.append (.cons (declares rfl) (flags_fit _) (.cons (declares rfl) (.list hps)
          (.one (declares rfl) (.list hxs))))))
  case arrowFunctionExpression flags params body =>
    obtain ⟨ihbody, ihparams⟩ := ih
    obtain ⟨ps, hps, members, hm, rfl⟩ := h
    have hps := parameters_are (Node.Supposed.all ihparams) hps
    have hhead : MembersFit bundled Bundled.arrowFunctionExpression [1, 2]
        [("type", flags.form), ("parameters", .list ps)] :=
      .cons (declares rfl) (flags_fit flags) (.one (declares rfl) (.list hps))
    rcases arrowBody_fit ihbody.self hm with hm | hm
    · exact is_expression 13 (declares rfl)
        (is_record Bundled.arrowFunctionExpression [1, 2, 3] (by simp [bundled]) rfl
          (hhead.append hm))
    · exact is_expression 13 (declares rfl)
        (is_record Bundled.arrowFunctionExpression [1, 2, 4] (by simp [bundled]) rfl
          (hhead.append hm))
  case callExpression callee arguments =>
    obtain ⟨ihcallee, iharguments⟩ := ih
    obtain ⟨c, hc, xs, hxs, rfl⟩ := h
    have hxs := expressions_are (Node.Supposed.all iharguments) hxs
    exact is_expression 14 (declares rfl)
      (is_record Bundled.callExpression [1, 2, 3] (by simp [bundled]) rfl
        (.cons (declares rfl) (ihcallee.self.expression hc)
          (.cons (declares rfl) (.list hxs) (.one (declares rfl) .bool))))
  case newExpression callee arguments =>
    obtain ⟨ihcallee, iharguments⟩ := ih
    obtain ⟨c, hc, xs, hxs, rfl⟩ := h
    have hxs := expressions_are (Node.Supposed.all iharguments) hxs
    exact is_expression 15 (declares rfl)
      (is_record Bundled.newExpression [1, 2] (by simp [bundled]) rfl
        (.cons (declares rfl) (ihcallee.self.expression hc) (.one (declares rfl) (.list hxs))))
  case memberExpression optional computed object property =>
    obtain ⟨ihobject, ihproperty, -⟩ := ih
    obtain ⟨o, ho, members, hm, rfl⟩ := h
    have hhead : MembersFit bundled Bundled.memberExpression [1, 4]
        [("object", o), ("isOptional", .bool optional)] :=
      .cons (declares rfl) (ihobject.self.expression ho) (.one (declares rfl) .bool)
    rcases memberProperty_fit ihproperty.self hm with hm | hm
    · exact is_expression 16 (declares rfl)
        (is_record Bundled.memberExpression [1, 4, 3] (by simp [bundled]) rfl (hhead.append hm))
    · exact is_expression 16 (declares rfl)
        (is_record Bundled.memberExpression [1, 4, 2] (by simp [bundled]) rfl (hhead.append hm))
  case unaryExpression argument =>
    obtain ⟨ihargument, -⟩ := ih
    obtain ⟨y, hy, rfl⟩ := h
    exact is_expression 17 (declares rfl)
      (is_record Bundled.unaryExpression [1, 2] (by simp [bundled]) rfl
        (.cons (declares rfl) .text (.one (declares rfl) (ihargument.self.expression hy))))
  case binaryExpression left right =>
    obtain ⟨ihleft, ihright, -⟩ := ih
    obtain ⟨l, hl, r, hr, rfl⟩ := h
    exact is_expression 18 (declares rfl)
      (is_record Bundled.binaryExpression [1, 2, 3] (by simp [bundled]) rfl
        (.cons (declares rfl) .text (.cons (declares rfl) (ihleft.self.expression hl)
          (.one (declares rfl) (ihright.self.expression hr)))))
  case updateExpression argument =>
    obtain ⟨ihargument, -⟩ := ih
    obtain ⟨y, hy, rfl⟩ := h
    exact is_expression 19 (declares rfl)
      (is_record Bundled.updateExpression [1, 2, 3] (by simp [bundled]) rfl
        (.cons (declares rfl) .text (.cons (declares rfl) .bool
          (.one (declares rfl) (ihargument.self.expression hy)))))
  case assignmentExpression left right =>
    obtain ⟨ihleft, ihright, -⟩ := ih
    obtain ⟨l, hl, r, hr, rfl⟩ := h
    exact is_expression 20 (declares rfl)
      (is_record Bundled.assignmentExpression [1, 2, 3] (by simp [bundled]) rfl
        (.cons (declares rfl) .text (.cons (declares rfl) (ihleft.self.expression hl)
          (.one (declares rfl) (ihright.self.expression hr)))))
  case conditionalExpression test consequent alternate =>
    obtain ⟨ihtest, ihconsequent, ihalternate, -⟩ := ih
    obtain ⟨t, ht, y, hy, e, he, rfl⟩ := h
    exact is_expression 21 (declares rfl)
      (is_record Bundled.conditionalExpression [1, 2, 3] (by simp [bundled]) rfl
        (.cons (declares rfl) (ihtest.self.expression ht)
          (.cons (declares rfl) (ihconsequent.self.expression hy)
            (.one (declares rfl) (ihalternate.self.expression he)))))
  case sequenceExpression values =>
    obtain ⟨xs, hxs, rfl⟩ := h
    exact is_expression 22 (declares rfl)
      (is_record Bundled.sequenceExpression [1] (by simp [bundled]) rfl
        (.one (declares rfl) (.list (expressions_are (Node.Supposed.all ih) hxs))))
  case awaitExpression argument =>
    obtain ⟨ihargument, -⟩ := ih
    obtain ⟨y, hy, rfl⟩ := h
    exact is_expression 23 (declares rfl)
      (is_record Bundled.awaitExpression [1] (by simp [bundled]) rfl
        (.one (declares rfl) (ihargument.self.expression hy)))
  case yieldExpression argument =>
    obtain ⟨ihargument, -⟩ := ih
    obtain ⟨members, hm, rfl⟩ := h
    exact is_expression 24 (declares rfl)
      (is_record Bundled.yieldExpression [2, 1] (by simp [bundled]) rfl
        (.cons (declares rfl) .bool
          (.optionally (declares rfl) hm fun _ => ihargument.self.expression)))
  case spreadElement argument =>
    obtain ⟨ihargument, -⟩ := ih
    obtain ⟨y, hy, rfl⟩ := h
    exact is_expression 25 (declares rfl)
      (is_record Bundled.spreadElement [1] (by simp [bundled]) rfl
        (.one (declares rfl) (ihargument.self.expression hy)))
  case parenthesizedExpression e =>
    obtain ⟨ihe, -⟩ := ih
    exact ihe.self.expression h
  case intrinsicIdentifier =>
    subst h
    exact is_expression 26 (declares rfl)
      (is_record Bundled.v8IntrinsicIdentifier [1] (by simp [bundled]) rfl
        (.one (declares rfl) .text))

-- ---------------------------------------------------------------------------
-- Whole trees
-- ---------------------------------------------------------------------------

theorem Node.WellFormed.gives (h : n.WellFormed) : n.Gives :=
  Node.Every.induction (fun _ hc ih => {
    statement := statement_is hc ih
    expression := expression_is ih
    parameter := parameter_is ih
    declarator := declarator_is ih
    field := objectField_is ih
    target := loopTarget_is ih
    block := blockBody_are ih
    declarations := declarations_are ih
    handler := catchMember_fit ih
    members := classBody_are ih }) h

/-- What a well-formed script is converted to is an instance of the message of whole trees. -/
theorem form_is_ast {p : Program} (hp : p.WellFormed) (h : p.form = .ok o) :
    Is Bundled.ast o := by
  unfold Program.form at h
  simp only [bind_ok, pure_ok] at h
  obtain ⟨xs, hxs, rfl⟩ := h
  exact is_record _ [1] (by simp [bundled]) rfl
    (.one (declares rfl) (.list (statements_are (fun n hn => (hp.2 n hn).gives) hxs)))

end Treewire.Script
