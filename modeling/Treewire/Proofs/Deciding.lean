import Treewire.Proofs.Choices
import Treewire.Proofs.Recovery
import Treewire.Proofs.Verdict

/-!
# Conversion makes choices

`form_decides`: whatever a well-formed script is converted to, every choice in it is made, but for
holes of arrays and for accesses to what has no name; and these stand where they stand in the
script. The proof goes through the conversion position by position, as that of `form_is_ast` does.
-/

namespace Treewire.Script

open Schema

variable {n : Node} {marks : List Mark}

-- ---------------------------------------------------------------------------
-- What each position gives
-- ---------------------------------------------------------------------------

/-- What a node is converted to shows the marks of the node, position by position. -/
structure Node.Shows (n : Node) : Prop where
  statement : Script.statement n = .ok x →
    Script.Shows Bundled.statement (Site.mk .statement n).marks x
  expression : Script.expression n = .ok x →
    Script.Shows Bundled.expression (Site.mk .expression n).marks x
  parameter : Script.parameter n = .ok x →
    Script.Shows Bundled.parameter (Site.mk .parameter n).marks x
  declarator : Script.declarator n = .ok x →
    Script.Shows Bundled.variableDeclarator (Site.mk .declarator n).marks x
  field : Script.objectField n = .ok x →
    Script.Shows Bundled.objectField (Site.mk .field n).marks x
  target : loopTarget n = .ok x →
    Script.Shows Bundled.variableDeclarator (Site.mk .loopHead n).marks x
  block : n.isBlock = true → blockBody n = .ok xs →
    Script.Shows Bundled.statement (Site.mk .statement n).marks (.list xs)
  declarations : Script.declarations n = .ok xs →
    Script.Shows Bundled.variableDeclarator (Site.mk .statement n).marks (.list xs)
  handler : catchMember n = .ok members →
    MembersShow Bundled.tryStatement [2] (Site.mk .catchClause n).marks members
  members : n.isClassBody = true → Script.classBody n = .ok (properties, methods) →
    ∃ before after, Script.Shows Bundled.classProperty before (.list properties) ∧
      Script.Shows Bundled.classMethod after (.list methods) ∧
      (before ++ after).Perm (Site.mk .classBody n).marks

/-- What is supposed of the children of a node. -/
abbrev Node.Showing : Node → Prop := Node.Supposed Node.complete Node.Shows

-- ---------------------------------------------------------------------------
-- Lists
-- ---------------------------------------------------------------------------

theorem statements_show {ns : List Node} (ih : ∀ n ∈ ns, n.Shows) (h : statements ns = .ok xs) :
    Shows Bundled.statement (marksOf .statement ns) (.list xs) := by
  rw [statements_eq_mapM, mapM_ok] at h
  exact .each h fun n hn _ => (ih n hn).statement

theorem expressions_show {ns : List Node} (ih : ∀ n ∈ ns, n.Shows)
    (h : expressions ns = .ok xs) :
    Shows Bundled.expression (marksOf .expression ns) (.list xs) := by
  rw [expressions_eq_mapM, mapM_ok] at h
  exact .each h fun n hn _ => (ih n hn).expression

theorem parameters_show {ns : List Node} (ih : ∀ n ∈ ns, n.Shows) (h : parameters ns = .ok xs) :
    Shows Bundled.parameter (marksOf .parameter ns) (.list xs) := by
  rw [parameters_eq_mapM, mapM_ok] at h
  exact .each h fun n hn _ => (ih n hn).parameter

theorem declarators_show {ns : List Node} (ih : ∀ n ∈ ns, n.Shows)
    (h : declarators ns = .ok xs) :
    Shows Bundled.variableDeclarator (marksOf .declarator ns) (.list xs) := by
  rw [declarators_eq_mapM, mapM_ok] at h
  exact .each h fun n hn _ => (ih n hn).declarator

theorem objectFields_show {ns : List Node} (ih : ∀ n ∈ ns, n.Shows)
    (h : objectFields ns = .ok xs) :
    Shows Bundled.objectField (marksOf .field ns) (.list xs) := by
  rw [objectFields_eq_mapM, mapM_ok] at h
  exact .each h fun n hn _ => (ih n hn).field

theorem switchCases_show {ns : List Node} (ih : ∀ n ∈ ns, n.Showing)
    (h : switchCases ns = .ok xs) :
    Shows Bundled.switchCase (marksOf .switchCase ns) (.list xs) := by
  rw [switchCases_eq_mapM, mapM_ok] at h
  refine .each h fun n hn x hx => ?_
  have ih := (ih n hn).deeper
  unfold switchCase at hx
  split at hx
  · simp only [Node.children, List.forall_mem_cons] at ih
    obtain ⟨ihtest, ihconsequent⟩ := ih
    simp only [bind_ok, pure_ok] at hx
    obtain ⟨xs, hxs, members, hm, rfl⟩ := hx
    have hxs := statements_show (Node.Supposed.all ihconsequent) hxs
    rw [marks_eq]
    simp only [Site.mark, Site.parts, Option.toList_none, List.nil_append, List.flatMap_append,
      marks_sites, marksOf_cons, marksOf_nil, List.append_nil]
    exact .record _ [2, 1] (by simp [bundled]) rfl rfl
      (.subs hxs (declares rfl)
        (.optionally (fun _ => ihtest.self.expression) (declares rfl) rfl hm))
  · simp at hx

-- ---------------------------------------------------------------------------
-- Parts of nodes
-- ---------------------------------------------------------------------------

theorem functionBody_shows (ih : n.Shows)
    (h : functionBody n (fun _ => blockBody n) (fun _ => statement n) = .ok xs) :
    Shows Bundled.statement (Site.mk .statement n).marks (.list xs) := by
  unfold functionBody at h
  split at h
  · exact ih.block rfl h
  · simp only [bind_ok, pure_ok] at h
    obtain ⟨x, hx, rfl⟩ := h
    have hone := (ih.statement hx).cons .nil
    rwa [List.append_nil] at hone

/-- Where a key is reached. -/
theorem marks_keyPosition (computed : Bool) (n : Node) :
    (Site.mk (keyPosition computed) n).marks =
      if computed then (Site.mk .expression n).marks else [] := by
  cases computed with
  | true => rfl
  | false =>
    rw [marks_eq]
    rfl

/-- The key of a property is one of three members. -/
theorem propertyKey_shows (t : MessageType) (hname : t.Declares 1 "name" (.one (.scalar .string)))
    (hindex : t.Declares 2 "index" (.one (.scalar .int64)))
    (hexpression : t.Declares 3 "expression" (.one (.message Bundled.expression.name)))
    (hk : n.Shows) (h : propertyKey computed n (fun _ => expression n) = .ok members) :
    ∃ i ∈ [1, 2, 3], MembersShow t [i] (Site.mk (keyPosition computed) n).marks members := by
  rw [marks_keyPosition]
  rcases propertyKey_forms h with
    ⟨rfl, x, hx, rfl⟩ | ⟨rfl, name, -, -, rfl⟩ | ⟨rfl, y, -, -, rfl⟩
  · exact ⟨3, by simp, .last (hk.expression hx) hexpression⟩
  · exact ⟨1, by simp, .text hname .nil⟩
  · exact ⟨2, by simp, .text hindex .nil⟩

/-- The key of a method is one of two members, since an index becomes a name. -/
theorem nameOnly_shows (hk : n.Shows)
    (h : propertyKey computed n (fun _ => expression n) = .ok members) :
    ∃ i ∈ [1, 2], MembersShow Bundled.objectMethod [i] (Site.mk (keyPosition computed) n).marks
      (nameOnly members) := by
  rw [marks_keyPosition]
  rcases propertyKey_forms h with
    ⟨rfl, x, hx, rfl⟩ | ⟨rfl, name, -, -, rfl⟩ | ⟨rfl, y, -, -, rfl⟩
  · exact ⟨2, by simp, .last (hk.expression hx) (declares rfl)⟩
  · exact ⟨1, by simp, .text (declares rfl) .nil⟩
  · exact ⟨1, by simp, .text (declares rfl) .nil⟩

theorem declarationKind?_cases {kind : Text} (h : declarationKind? kind = some members) :
    members = [] ∨ ∃ x, members = [("kind", x)] := by
  unfold declarationKind? at h
  split at h
  · exact .inr ⟨_, (Option.some.inj h).symm⟩
  · exact .inr ⟨_, (Option.some.inj h).symm⟩
  · exact .inr ⟨_, (Option.some.inj h).symm⟩
  · exact .inr ⟨_, (Option.some.inj h).symm⟩
  · split at h
    · exact .inl (Option.some.inj h).symm
    · cases h
  · cases h

/-- A declaration has its variables. -/
theorem declarationMembers_shows {m : Node} {kind : Text}
    (hd : ∀ xs, convert () = .ok xs → Shows Bundled.variableDeclarator marks (.list xs))
    (h : declarationMembers m kind convert = .ok members) :
    Shows Bundled.variableDeclaration marks (.record members) := by
  unfold declarationMembers at h
  split at h
  · simp at h
  · rename_i found hf
    simp only [bind_ok, pure_ok] at h
    obtain ⟨xs, hxs, rfl⟩ := h
    have hm : MembersShow Bundled.variableDeclaration [1] [] found := by
      rcases declarationKind?_cases hf with rfl | ⟨x, rfl⟩
      · exact .skip (fun f hi => by cases hi; rfl) .nil
      · exact .choice (declares rfl) .nil
    exact .record _ [1, 2] (by simp [bundled]) rfl rfl
      (hm.append (.lasts (hd xs hxs) (declares rfl)))

/-- The start of a counting loop is a declaration or an expression, or is left out. -/
theorem loopStart_shows (ih : n.Shows)
    (h : loopStart n (fun _ => declarations n) (fun _ => expression n) = .ok members) :
    ∃ is ∈ [[], [1], [2]],
      MembersShow Bundled.forLoop is (Site.mk n.startPosition n).marks members := by
  unfold loopStart at h
  split at h
  · rw [← pure_ok.mp h, marks_absent]
    exact ⟨[], by simp, .nil⟩
  · simp only [bind_ok, pure_ok] at h
    obtain ⟨declared, hd, rfl⟩ := h
    have hdeclaration := declarationMembers_shows (fun _ => ih.declarations) hd
    exact ⟨[1], by simp, .last hdeclaration (declares rfl)⟩
  · rename_i hdeclaration
    simp only [bind_ok, pure_ok] at h
    obtain ⟨x, hx, rfl⟩ := h
    have hstart : n.startPosition = .expression := by
      unfold Node.startPosition
      split
      · exact absurd rfl (hdeclaration _ _ _)
      · rfl
    rw [hstart]
    exact ⟨[2], by simp, .last (ih.expression hx) (declares rfl)⟩

-- ---------------------------------------------------------------------------
-- Bindings
-- ---------------------------------------------------------------------------

@[simp] theorem marks_binding : (Site.mk .binding n).marks = [] := by
  rw [marks_eq]
  rfl

theorem parameter_shows (ih : ∀ c ∈ n.children, c.Showing) (h : parameter n = .ok x) :
    Shows Bundled.parameter (Site.mk .parameter n).marks x := by
  rw [marks_eq]
  unfold parameter at h
  split at h
  · rw [← pure_ok.mp h]
    exact .record _ [1] (by simp [bundled]) rfl rfl (.text (declares rfl) .nil)
  · simp only [Node.children, List.forall_mem_cons] at ih
    obtain ⟨-, ihright, -⟩ := ih
    simp only [bind_ok, pure_ok] at h
    obtain ⟨y, hy, rfl⟩ := h
    simp only [Site.mark, Site.parts, Option.toList_none, List.nil_append, List.flatMap_append,
      marks_sites, marksOf_cons, marksOf_nil, marks_binding, List.append_nil]
    exact .record _ [1, 2] (by simp [bundled]) rfl rfl
      (.text (declares rfl) (.last (ihright.self.expression hy) (declares rfl)))
  · simp at h
  · rw [← pure_ok.mp h]
    simp only [Site.mark, Site.parts, Option.toList_none, List.nil_append,
      marks_sites, marksOf_cons, marksOf_nil, marks_binding]
    exact .record _ [1, 3] (by simp [bundled]) rfl rfl
      (.text (declares rfl) (.text (declares rfl) .nil))
  · simp at h
  · simp at h

theorem declarator_shows (ih : ∀ c ∈ n.children, c.Showing) (h : declarator n = .ok x) :
    Shows Bundled.variableDeclarator (Site.mk .declarator n).marks x := by
  rw [marks_eq]
  unfold declarator at h
  split at h
  · simp only [Node.children, List.forall_mem_cons] at ih
    obtain ⟨-, ihinit, -⟩ := ih
    simp only [bind_ok, pure_ok] at h
    obtain ⟨members, hm, rfl⟩ := h
    simp only [Site.mark, Site.parts, Option.toList_none, List.nil_append, List.flatMap_append,
      marks_sites, marksOf_cons, marksOf_nil, marks_binding, List.append_nil]
    exact .record _ [1, 2] (by simp [bundled]) rfl rfl
      (.text (declares rfl) (.optionally (fun _ => ihinit.self.expression) (declares rfl) rfl hm))
  · simp at h
  · simp at h

theorem loopTarget_shows (ih : ∀ c ∈ n.children, c.Showing) (h : loopTarget n = .ok x) :
    Shows Bundled.variableDeclarator (Site.mk .loopHead n).marks x := by
  rw [marks_eq]
  unfold loopTarget at h
  split at h
  · rename_i declaration
    simp only [Site.mark, Site.parts, Option.toList_none, List.nil_append,
      marks_sites, marksOf_cons, marksOf_nil, List.append_nil]
    exact (ih declaration List.mem_cons_self).self.declarator h
  · rw [← pure_ok.mp h]
    exact .record _ [1] (by simp [bundled]) rfl rfl (.text (declares rfl) .nil)
  · simp at h

theorem declarations_show (ih : ∀ c ∈ n.children, c.Showing) (h : declarations n = .ok xs) :
    Shows Bundled.variableDeclarator (Site.mk .statement n).marks (.list xs) := by
  rw [marks_eq]
  cases n <;> simp only [declarations, throw_ok] at h
  case variableDeclaration list =>
    simp only [Site.mark, Site.parts, Node.statementSites, Option.toList_none, List.nil_append,
      marks_sites]
    exact declarators_show (Node.Supposed.all ih) h

theorem blockBody_shows (ih : ∀ c ∈ n.children, c.Showing) (hb : n.isBlock = true)
    (h : blockBody n = .ok xs) :
    Shows Bundled.statement (Site.mk .statement n).marks (.list xs) := by
  rw [marks_eq]
  cases n <;> simp only [Node.isBlock, Bool.false_eq_true] at hb
  simp only [Site.mark, Site.parts, Node.statementSites, Option.toList_none, List.nil_append,
    marks_sites]
  exact statements_show (Node.Supposed.all ih) h

theorem catchMember_shows (hc : n.complete = true) (ih : ∀ c ∈ n.children, c.Showing)
    (h : catchMember n = .ok members) :
    MembersShow Bundled.tryStatement [2] (Site.mk .catchClause n).marks members := by
  rw [marks_eq]
  cases n <;> simp only [catchMember, throw_ok, bind_ok, pure_ok] at h
  case absent =>
    subst h
    exact .skip (fun f hi => by cases hi; rfl) .nil
  case catchClause param body =>
    simp only [Node.children, List.forall_mem_cons] at ih
    obtain ⟨ihparam, ihbody, -⟩ := ih
    obtain ⟨xs, hxs, found, hf, rfl⟩ := h
    simp only [Site.mark, Site.parts, Option.toList_none, List.nil_append, List.flatMap_append,
      marks_sites, marksOf_cons, marksOf_nil, List.append_nil]
    have hclause : Shows Bundled.catchClause
        ((Site.mk .statement body).marks ++ (Site.mk .parameter param).marks)
        (.record (("body", .list xs) :: found)) :=
      .record _ [2, 1] (by simp [bundled]) rfl rfl
        (.subs (ihbody.self.block hc hxs) (declares rfl)
          (.optionally (fun _ => ihparam.self.parameter) (declares rfl) rfl hf))
    exact .last hclause (declares rfl)

theorem finallyClause_shows (hc : n.isOptional Node.isBlock = true) (ih : n.Shows)
    (h : finallyClause n = .ok x) :
    Shows Bundled.finallyClause (Site.mk .statement n).marks x := by
  simp only [finallyClause, bind_ok, pure_ok] at h
  obtain ⟨xs, hxs, rfl⟩ := h
  have hb : n.isBlock = true := by
    rw [Node.isOptional, Bool.or_eq_true] at hc
    refine hc.resolve_left fun habsent => ?_
    unfold Node.isPresent at habsent
    split at habsent
    · simp [blockBody] at hxs
    · cases habsent
  exact .record _ [1] (by simp [bundled]) rfl rfl (.lasts (ih.block hb hxs) (declares rfl))

-- ---------------------------------------------------------------------------
-- Fields of object literals
-- ---------------------------------------------------------------------------

theorem objectField_shows (ih : ∀ c ∈ n.children, c.Showing) (h : objectField n = .ok x) :
    Shows Bundled.objectField (Site.mk .field n).marks x := by
  rw [marks_eq]
  cases n <;> simp only [objectField, bind_ok, pure_ok, refuseAt_ok] at h <;>
    simp only [Node.children, List.forall_mem_cons] at ih <;>
    simp only [Site.mark, Site.parts, Option.toList_none, List.nil_append, List.flatMap_append,
      marks_sites, marksOf_cons, marksOf_nil, List.append_nil]
  case objectProperty computed shorthand key value =>
    obtain ⟨ihkey, ihvalue, -⟩ := ih
    obtain ⟨v, hv, members, hm, rfl⟩ := h
    obtain ⟨i, hi, hkey⟩ := propertyKey_shows Bundled.objectProperty (declares rfl) (declares rfl)
      (declares rfl) ihkey.self hm
    have hd : decides Bundled.objectProperty [4, i] = true := by
      simp only [List.mem_cons, List.not_mem_nil, or_false] at hi
      rcases hi with rfl | rfl | rfl <;> rfl
    exact .field 1 (.record _ [4, i] (by simp [bundled]) hd rfl
      (.sub (ihvalue.self.expression hv) (declares rfl) hkey)) (declares rfl) rfl
  case objectMethod computed kind flags key params body =>
    obtain ⟨ihkey, ihbody, ihparams⟩ := ih
    obtain ⟨members, hm, ps, hps, xs, hxs, rfl⟩ := h
    obtain ⟨i, hi, hkey⟩ := nameOnly_shows ihkey.self hm
    have hps := parameters_show (Node.Supposed.all ihparams) hps
    have hxs := functionBody_shows ihbody.self hxs
    have hd : decides Bundled.objectMethod [i, 3, 4, 5, 6] = true := by
      simp only [List.mem_cons, List.not_mem_nil, or_false] at hi
      rcases hi with rfl | rfl <;> rfl
    rw [List.append_assoc]
    exact .field 2 (.record _ [i, 3, 4, 5, 6] (by simp [bundled]) hd rfl
      (hkey.append (.text (declares rfl) (.choice (declares rfl)
        (.subs hps (declares rfl) (.lasts hxs (declares rfl))))))) (declares rfl) rfl
  case spreadElement argument =>
    obtain ⟨ihargument, -⟩ := ih
    obtain ⟨y, hy, rfl⟩ := h
    exact .field 3 (ihargument.self.expression hy) (declares rfl) rfl

-- ---------------------------------------------------------------------------
-- Members of classes
-- ---------------------------------------------------------------------------

theorem classProperty_shows (ih : ∀ c ∈ n.children, c.Showing) (h : classProperty n = .ok x) :
    Shows Bundled.classProperty (Site.mk .member n).marks x := by
  rw [marks_eq]
  unfold classProperty at h
  split at h
  · simp only [Node.children, List.forall_mem_cons] at ih
    obtain ⟨ihkey, ihvalue, -⟩ := ih
    simp only [bind_ok, pure_ok] at h
    obtain ⟨named, hn, valued, hv, rfl⟩ := h
    simp only [Site.mark, Site.parts, Option.toList_none, List.nil_append, List.flatMap_append,
      marks_sites, marksOf_cons, marksOf_nil, List.append_nil]
    obtain ⟨i, hi, hkey⟩ := propertyKey_shows Bundled.classProperty (declares rfl) (declares rfl)
      (declares rfl) ihkey.self hn
    have hvalue : MembersShow Bundled.classProperty [5] _ valued :=
      .optionally (fun _ => ihvalue.self.expression) (declares rfl) rfl hv
    have hd : decides Bundled.classProperty [4, i, 5] = true := by
      simp only [List.mem_cons, List.not_mem_nil, or_false] at hi
      rcases hi with rfl | rfl | rfl <;> rfl
    exact .record _ [4, i, 5] (by simp [bundled]) hd rfl
      (.text (declares rfl) (hkey.append hvalue))
  · simp at h

theorem classMethod_shows (ih : ∀ c ∈ n.children, c.Showing) (h : classMethod n = .ok x) :
    Shows Bundled.classMethod (Site.mk .member n).marks x := by
  rw [marks_eq]
  unfold classMethod at h
  split at h
  · simp only [Node.children, List.forall_mem_cons] at ih
    obtain ⟨-, ihbody, ihparams⟩ := ih
    simp only [bind_ok, pure_ok] at h
    obtain ⟨name, hn, ps, hps, xs, hxs, rfl⟩ := h
    have hps := parameters_show (Node.Supposed.all ihparams) hps
    have hxs := functionBody_shows ihbody.self hxs
    simp only [Site.mark, Site.parts, Option.toList_none, List.nil_append, List.flatMap_append,
      marks_sites, marksOf_cons, marksOf_nil, List.append_nil]
    exact .record _ [1, 2, 3, 4, 5] (by simp [bundled]) rfl rfl
      (.text (declares rfl) (.text (declares rfl) (.text (declares rfl)
        (.subs hps (declares rfl) (.lasts hxs (declares rfl))))))
  · simp at h

/-- Properties and methods are taken apart, and nothing is left. -/
theorem marksOf_members {ns : List Node}
    (h : ∀ n ∈ ns, n.isProperty = true ∨ n.isMethod = true) :
    (marksOf .member (ns.filter Node.isProperty) ++ marksOf .member (ns.filter Node.isMethod)).Perm
      (marksOf .member ns) := by
  induction ns with
  | nil => exact .refl _
  | cons n rest ih =>
    rw [List.forall_mem_cons] at h
    have hrest := ih h.2
    rw [marksOf_cons]
    cases hp : n.isProperty with
    | true =>
      have hm : n.isMethod = false := by
        unfold Node.isProperty at hp
        split at hp
        · rfl
        · cases hp
      rw [List.filter_cons_of_pos hp, List.filter_cons_of_neg (by simp [hm]), marksOf_cons,
        List.append_assoc]
      exact hrest.append_left _
    | false =>
      have hm : n.isMethod = true := h.1.resolve_left (by simp [hp])
      rw [List.filter_cons_of_neg (by simp [hp]), List.filter_cons_of_pos hm, marksOf_cons]
      exact List.perm_append_comm_assoc _ _ _ |>.trans (hrest.append_left _)

theorem classBody_shows (ih : ∀ c ∈ n.children, c.Showing) (hb : n.isClassBody = true)
    (h : Script.classBody n = .ok (properties, methods)) :
    ∃ before after, Shows Bundled.classProperty before (.list properties) ∧
      Shows Bundled.classMethod after (.list methods) ∧
      (before ++ after).Perm (Site.mk .classBody n).marks := by
  rw [marks_eq]
  cases n <;> simp only [Node.isClassBody, Bool.false_eq_true] at hb
  rename_i body
  simp only [Script.classBody, classMembers_ok] at h
  obtain ⟨hps, hms, hall⟩ := h
  simp only [Site.mark, Site.parts, Option.toList_none, List.nil_append, marks_sites]
  refine ⟨_, _, .each hps fun c hc x => ?_, .each hms fun c hc x => ?_, marksOf_members hall⟩
  · exact classProperty_shows (ih c (List.mem_filter.mp hc).1).deeper
  · exact classMethod_shows (ih c (List.mem_filter.mp hc).1).deeper

-- ---------------------------------------------------------------------------
-- Statements
-- ---------------------------------------------------------------------------

theorem statement_shows (hc : n.complete = true) (ih : ∀ c ∈ n.children, c.Showing)
    (h : statement n = .ok x) : Shows Bundled.statement (Site.mk .statement n).marks x := by
  rw [marks_eq]
  cases n <;> simp only [statement, bind_ok, pure_ok, refuseAt_ok] at h <;>
    simp only [Node.children, List.forall_mem_cons] at ih <;>
    simp only [Site.mark, Site.parts, Node.statementSites, Option.toList_none, List.nil_append,
      List.flatMap_append, marks_sites, marksOf_cons, marksOf_nil, List.append_nil,
      List.append_assoc]
  case emptyStatement =>
    subst h
    exact .statement 1 (.record Bundled.emptyStatement [] (by simp [bundled]) rfl rfl .nil)
      (declares rfl) rfl
  case blockStatement body =>
    obtain ⟨xs, hxs, rfl⟩ := h
    exact .statement 2 (.record Bundled.blockStatement [1] (by simp [bundled]) rfl rfl
      (.lasts (statements_show (Node.Supposed.all ih) hxs) (declares rfl))) (declares rfl) rfl
  case variableDeclaration kind list =>
    obtain ⟨members, hm, rfl⟩ := h
    exact .statement 3 (declarationMembers_shows
      (fun _ => declarators_show (Node.Supposed.all ih)) hm) (declares rfl) rfl
  case functionDeclaration flags id params body =>
    obtain ⟨-, ihbody, ihparams⟩ := ih
    obtain ⟨named, hn, ps, hps, xs, hxs, rfl⟩ := h
    have hname : MembersShow Bundled.functionDeclaration [1] [] named :=
      .nameMember (declares rfl) rfl hn
    have hps := parameters_show (Node.Supposed.all ihparams) hps
    have hxs := functionBody_shows ihbody.self hxs
    exact .statement 4 (.record Bundled.functionDeclaration [1, 2, 3, 4] (by simp [bundled]) rfl rfl
      (hname.append (.choice (declares rfl)
        (.subs hps (declares rfl) (.lasts hxs (declares rfl)))))) (declares rfl) rfl
  case classDeclaration id superClass body =>
    obtain ⟨-, ihsuper, ihbody, -⟩ := ih
    simp only [Node.complete, Bool.and_eq_true] at hc
    obtain ⟨parent, hp, ⟨properties, methods⟩, hm, rfl⟩ := h
    obtain ⟨before, after, hproperties, hmethods, hperm⟩ := ihbody.self.members hc.2 hm
    have hname : MembersShow Bundled.classDeclaration [1] [] (nameOrEmpty id) :=
      .nameOrEmpty (declares rfl) rfl
    have hparent : MembersShow Bundled.classDeclaration [2] _ parent :=
      .optionally (fun _ => ihsuper.self.expression) (declares rfl) rfl hp
    have hbody : MembersShow Bundled.classDeclaration [3, 4] (before ++ after)
        [("properties", .list properties), ("methods", .list methods)] :=
      .subs hproperties (declares rfl) (.lasts hmethods (declares rfl))
    -- The parent comes first among the nodes, and last among the members.
    refine (Shows.statement 5 (.record Bundled.classDeclaration [1, 3, 4, 2] (by simp [bundled])
      rfl rfl ((hname.append hbody).append hparent)) (declares rfl) rfl).perm ?_
    rw [List.nil_append]
    exact (hperm.append_right _).trans List.perm_append_comm
  case returnStatement argument =>
    obtain ⟨ihargument, -⟩ := ih
    obtain ⟨members, hm, rfl⟩ := h
    exact .statement 6 (.record Bundled.returnStatement [1] (by simp [bundled]) rfl rfl
      (.optionally (fun _ => ihargument.self.expression) (declares rfl) rfl hm)) (declares rfl) rfl
  case expressionStatement e =>
    obtain ⟨ihe, -⟩ := ih
    obtain ⟨y, hy, rfl⟩ := h
    exact .statement 7 (.record Bundled.expressionStatement [1] (by simp [bundled]) rfl rfl
      (.last (ihe.self.expression hy) (declares rfl))) (declares rfl) rfl
  case ifStatement test consequent alternate =>
    obtain ⟨ihtest, ihconsequent, ihalternate, -⟩ := ih
    obtain ⟨t, ht, y, hy, members, hm, rfl⟩ := h
    have hno : MembersShow Bundled.ifStatement [3] _ members :=
      .optionally (fun _ => ihalternate.self.statement) (declares rfl) rfl hm
    exact .statement 8 (.record Bundled.ifStatement [1, 2, 3] (by simp [bundled]) rfl rfl
      (.sub (ihtest.self.expression ht) (declares rfl)
        (.sub (ihconsequent.self.statement hy) (declares rfl) hno))) (declares rfl) rfl
  case whileStatement test body =>
    obtain ⟨ihtest, ihbody, -⟩ := ih
    obtain ⟨t, ht, b, hb, rfl⟩ := h
    exact .statement 9 (.record Bundled.whileLoop [1, 2] (by simp [bundled]) rfl rfl
      (.sub (ihtest.self.expression ht) (declares rfl)
        (.last (ihbody.self.statement hb) (declares rfl)))) (declares rfl) rfl
  case doWhileStatement body test =>
    obtain ⟨ihbody, ihtest, -⟩ := ih
    obtain ⟨b, hb, t, ht, rfl⟩ := h
    exact .statement 10 (.record Bundled.doWhileLoop [1, 2] (by simp [bundled]) rfl rfl
      (.sub (ihbody.self.statement hb) (declares rfl)
        (.last (ihtest.self.expression ht) (declares rfl)))) (declares rfl) rfl
  case forStatement init test update body =>
    obtain ⟨ihinit, ihtest, ihupdate, ihbody, -⟩ := ih
    obtain ⟨b, hb, start, hs, condition, ht, step, hu, rfl⟩ := h
    obtain ⟨is, hi, hstart⟩ := loopStart_shows ihinit.self hs
    have hcondition : MembersShow Bundled.forLoop [3] _ condition :=
      .optionally (fun _ => ihtest.self.expression) (declares rfl) rfl ht
    have hstep : MembersShow Bundled.forLoop [4] _ step :=
      .optionally (fun _ => ihupdate.self.expression) (declares rfl) rfl hu
    have hd : decides Bundled.forLoop (5 :: (is ++ ([3] ++ [4]))) = true := by
      simp only [List.mem_cons, List.not_mem_nil, or_false] at hi
      rcases hi with rfl | rfl | rfl <;> rfl
    rw [List.append_assoc]
    exact .statement 11 (.record Bundled.forLoop _ (by simp [bundled]) hd rfl
      (.sub (ihbody.self.statement hb) (declares rfl)
        (hstart.append (hcondition.append hstep)))) (declares rfl) rfl
  case forInStatement left right body =>
    obtain ⟨ihleft, ihright, ihbody, -⟩ := ih
    obtain ⟨l, hl, r, hr, b, hb, rfl⟩ := h
    exact .statement 12 (.record Bundled.forInLoop [1, 2, 3] (by simp [bundled]) rfl rfl
      (.sub (ihleft.self.target hl) (declares rfl) (.sub (ihright.self.expression hr) (declares rfl)
        (.last (ihbody.self.statement hb) (declares rfl))))) (declares rfl) rfl
  case forOfStatement left right body =>
    obtain ⟨ihleft, ihright, ihbody, -⟩ := ih
    obtain ⟨l, hl, r, hr, b, hb, rfl⟩ := h
    exact .statement 13 (.record Bundled.forOfLoop [1, 2, 3] (by simp [bundled]) rfl rfl
      (.sub (ihleft.self.target hl) (declares rfl) (.sub (ihright.self.expression hr) (declares rfl)
        (.last (ihbody.self.statement hb) (declares rfl))))) (declares rfl) rfl
  case breakStatement =>
    subst h
    exact .statement 14 (.record Bundled.breakStatement [1] (by simp [bundled]) rfl rfl
      (.labelMember (declares rfl) rfl)) (declares rfl) rfl
  case continueStatement =>
    subst h
    exact .statement 15 (.record Bundled.continueStatement [1] (by simp [bundled]) rfl rfl
      (.labelMember (declares rfl) rfl)) (declares rfl) rfl
  case tryStatement block handler finalizer =>
    obtain ⟨ihblock, ihhandler, ihfinalizer, -⟩ := ih
    simp only [Node.complete, Bool.and_eq_true] at hc
    obtain ⟨xs, hxs, caught, hh, final, hf, rfl⟩ := h
    have hcaught := ihhandler.self.handler hh
    have hfinal : MembersShow Bundled.tryStatement [3] (Site.mk .statement finalizer).marks final :=
      .optionally (fun _ => finallyClause_shows hc.2 ihfinalizer.self) (declares rfl) rfl hf
    exact .statement 16 (.record Bundled.tryStatement [1, 2, 3] (by simp [bundled]) rfl rfl
      (.subs (ihblock.self.block hc.1.1 hxs) (declares rfl) (hcaught.append hfinal)))
      (declares rfl) rfl
  case throwStatement argument =>
    obtain ⟨ihargument, -⟩ := ih
    obtain ⟨y, hy, rfl⟩ := h
    exact .statement 17 (.record Bundled.throwStatement [1] (by simp [bundled]) rfl rfl
      (.last (ihargument.self.expression hy) (declares rfl))) (declares rfl) rfl
  case switchStatement discriminant cases =>
    obtain ⟨ihdiscriminant, ihcases⟩ := ih
    obtain ⟨d, hd, xs, hxs, rfl⟩ := h
    exact .statement 18 (.record Bundled.switchStatement [1, 2] (by simp [bundled]) rfl rfl
      (.sub (ihdiscriminant.self.expression hd) (declares rfl)
        (.lasts (switchCases_show ihcases hxs) (declares rfl)))) (declares rfl) rfl

-- ---------------------------------------------------------------------------
-- Expressions
-- ---------------------------------------------------------------------------

theorem arrowBody_shows (ih : n.Shows)
    (h : arrowBody n (fun _ => blockBody n) (fun _ => expression n) = .ok members) :
    ∃ i ∈ [3, 4], MembersShow Bundled.arrowFunctionExpression [i]
      (Site.mk n.arrowPosition n).marks members := by
  unfold arrowBody at h
  split at h
  · simp only [bind_ok, pure_ok] at h
    obtain ⟨xs, hxs, rfl⟩ := h
    have hblock := Shows.statement 2 (.record Bundled.blockStatement [1] (by simp [bundled]) rfl rfl
      (.lasts (ih.block rfl hxs) (declares rfl))) (declares rfl) rfl
    exact ⟨3, by simp, .last hblock (declares rfl)⟩
  · split at h <;> simp at h
  · rename_i hblock _
    simp only [bind_ok, pure_ok] at h
    obtain ⟨x, hx, rfl⟩ := h
    have hposition : n.arrowPosition = .expression := by
      unfold Node.arrowPosition
      split
      · exact absurd rfl (hblock _ _ _)
      · rfl
    rw [hposition]
    exact ⟨4, by simp, .last (ih.expression hx) (declares rfl)⟩

/-- The elements of an array show the marks of what they were converted from. A hole stands where
no element is given, and nowhere else. -/
theorem elements_show {values : List Node} (ih : ∀ c ∈ values, c.Shows)
    (h : Each element values xs) :
    (∀ q ∈ Form.itemParts bundled (.message Bundled.expression.name) xs, q.Sound) ∧
    (marksOf .expression values).Perm
      ((Form.itemParts bundled (.message Bundled.expression.name) xs).filterMap TypedRecord.mark) ∧
    xs.map (fun x => !x.isHole) = values.map Node.isPresent := by
  induction h with
  | nil => exact ⟨fun q hq => absurd hq List.not_mem_nil, .refl _, rfl⟩
  | @cons n x rest xs hx _ hrest =>
    rw [List.forall_mem_cons] at ih
    obtain ⟨hsound, hbears, hgiven⟩ := hrest ih.2
    rw [marksOf_cons, Form.itemParts, List.filterMap_append, List.map_cons, List.map_cons, hgiven]
    unfold element at hx
    split at hx
    · rw [← pure_ok.mp hx, parts_record (t := Bundled.expression) (by simp [bundled]), marks_absent]
      refine ⟨List.forall_mem_append.mpr ⟨?_, hsound⟩, ?_, rfl⟩
      · rw [Form.memberParts, List.forall_mem_singleton]
        refine ⟨.inr (.inl ⟨rfl, rfl⟩), ?_⟩
        rintro ⟨f, -, -, x, hx, -⟩
        exact absurd hx List.not_mem_nil
      · rw [Form.memberParts, List.filterMap_cons, mark_of_isUnmarked rfl]
        exact hbears
    · rename_i habsent
      have hshows := ih.1.expression hx
      have hhole : x.isHole = false := by
        rw [Bool.eq_false_iff]
        intro hole
        have := hshows.given rfl
        rw [Shows.hasHole_of_isHole hole] at this
        cases this
      have hpresent : n.isPresent = true := by
        unfold Node.isPresent
        split
        · exact absurd rfl habsent
        · rfl
      rw [hhole, hpresent]
      exact ⟨List.forall_mem_append.mpr ⟨hshows.sound, hsound⟩, hshows.bears.append hbears, rfl⟩

/-- An array shows which of its elements are given. -/
theorem arrayExpression_shows {values : List Node} (ih : ∀ c ∈ values, c.Shows)
    (h : elements values = .ok xs) :
    Shows Bundled.expression (.array (values.map Node.isPresent) :: marksOf .expression values)
      (.wrap "arrayExpression" [("elements", .list xs)]) := by
  rw [elements_eq_mapM, mapM_ok] at h
  obtain ⟨hsound, hbears, hgiven⟩ := elements_show ih h
  have hparts : (Form.record [("elements", .list xs)]).parts bundled
      (.message Bundled.arrayExpression.name) =
        ⟨Bundled.arrayExpression, [("elements", .list xs)]⟩ ::
          Form.itemParts bundled (.message Bundled.expression.name) xs := by
    have ht : Bundled.arrayExpression ∈ bundled.messages := by simp [bundled]
    have hd : Bundled.arrayExpression.Declares 1 "elements"
        (.many (.message Bundled.expression.name)) := declares rfl
    rw [parts_record ht, MembersShow.memberParts_cons (bundled_regular.messages _ ht) hd,
      Form.memberParts, List.append_nil]
    rfl
  have harray : Shows Bundled.arrayExpression
      (.array (values.map Node.isPresent) :: marksOf .expression values)
      (.record [("elements", .list xs)]) := by
    refine ⟨?_, ?_, fun _ => rfl⟩
    · rw [hparts, List.forall_mem_cons]
      refine ⟨⟨.inl fun f hf oneof ho => ?_, fun _ => rfl⟩, hsound⟩
      cases List.mem_singleton.mp hf
      cases ho
    · rw [hparts, List.filterMap_cons, TypedRecord.mark, if_pos rfl, ← hgiven]
      exact hbears.cons _
  exact .expression 10 harray (declares rfl) rfl

/-- The property of an access is said if it is computed or has a name. -/
theorem memberProperty_shows (ih : n.Shows)
    (h : memberProperty computed n (fun _ => expression n) = .ok members) :
    ∃ is, MembersShow Bundled.memberExpression is
        (marksOf .expression (if computed then [n] else [])) members ∧
      ((computed || n.name?.isSome) = true ∧ (is = [2] ∨ is = [3]) ∨
        (computed || n.name?.isSome) = false ∧ is = []) := by
  unfold memberProperty at h
  split at h
  · simp only [bind_ok, pure_ok] at h
    obtain ⟨x, hx, rfl⟩ := h
    refine ⟨[3], ?_, .inl ⟨rfl, .inr rfl⟩⟩
    rw [if_pos rfl, marksOf_cons, marksOf_nil, List.append_nil]
    exact .last (ih.expression hx) (declares rfl)
  · unfold nameMember at h
    split at h
    · simp at h
    · rw [pure_ok] at h
      subst h
      cases n.name? with
      | none => exact ⟨[], .nil, .inr ⟨rfl, rfl⟩⟩
      | some name => exact ⟨[2], .text (declares rfl) .nil, .inl ⟨rfl, .inl rfl⟩⟩

/-- An access is marked with whether a member says its property. -/
theorem mark_access {members : Form.Members} :
    (TypedRecord.mk Bundled.memberExpression members).mark = some (.access
      (!((TypedRecord.mk Bundled.memberExpression members).chosen "property").isEmpty)) := by
  have hne : Bundled.memberExpression ≠ Bundled.arrayExpression := fun h =>
    absurd (congrArg (·.fields.length) h) (by decide)
  rw [TypedRecord.mark, if_neg hne, if_pos rfl]

/-- An access shows whether its property is said. -/
theorem memberExpression_shows {object property : Node} {isOptional : Bool} (iho : object.Shows)
    (ihp : property.Shows) (ho : expression object = .ok o)
    (hm : memberProperty computed property (fun _ => expression property) = .ok members) :
    Shows Bundled.expression (.access (computed || property.name?.isSome) ::
        ((Site.mk .expression object).marks ++
          marksOf .expression (if computed then [property] else [])))
      (.wrap "memberExpression"
        ([("object", o), ("isOptional", .bool isOptional)] ++ members)) := by
  obtain ⟨is, hmembers, hsaid⟩ := memberProperty_shows ihp hm
  have hall : MembersShow Bundled.memberExpression (1 :: 4 :: is)
      ((Site.mk .expression object).marks ++
        marksOf .expression (if computed then [property] else []))
      ([("object", o), ("isOptional", .bool isOptional)] ++ members) :=
    .sub (iho.expression ho) (declares rfl) (.text (declares rfl) hmembers)
  have ht : Bundled.memberExpression ∈ bundled.messages := by simp [bundled]
  have hr := bundled_regular.messages _ ht
  have hlength := hall.length_chosen hr "property"
  rcases hsaid with ⟨hsaid, his⟩ | ⟨hsaid, rfl⟩ <;> rw [hsaid]
  · have hdecided : decides Bundled.memberExpression (1 :: 4 :: is) = true := by
      rcases his with rfl | rfl <;> rfl
    obtain ⟨m, hm⟩ := hall.isDecided hr hdecided _ (List.mem_of_getElem? (i := 1) rfl) "property"
      rfl (by decide)
    have haccess := hall.shows ht (.inl (hall.isDecided hr hdecided)) (fun _ => rfl)
    rw [mark_access, hm] at haccess
    exact .expression 16 haccess (declares rfl) rfl
  · have hnone := List.length_eq_zero_iff.mp hlength
    have haccess := hall.shows ht (.inr (.inr ⟨rfl, hnone⟩)) (fun _ => rfl)
    rw [mark_access, hnone] at haccess
    exact .expression 16 haccess (declares rfl) rfl

theorem expression_shows (ih : ∀ c ∈ n.children, c.Showing) (h : expression n = .ok x) :
    Shows Bundled.expression (Site.mk .expression n).marks x := by
  rw [marks_eq]
  cases n <;> simp only [expression, bind_ok, pure_ok, refuseAt_ok] at h <;>
    simp only [Node.children, List.forall_mem_cons] at ih <;>
    simp only [Site.mark, Site.parts, Node.expressionSites, Option.toList_none,
      Option.toList_some, List.nil_append, List.cons_append, List.flatMap_append, marks_sites,
      marksOf_cons, marksOf_nil, List.append_nil]
  case identifier =>
    subst h
    exact .expression 1 (.record Bundled.identifier [1] (by simp [bundled]) rfl rfl
      (.text (declares rfl) .nil)) (declares rfl) rfl
  case numericLiteral =>
    subst h
    exact .expression 2 (.record Bundled.numberLiteral [1] (by simp [bundled]) rfl rfl
      (.text (declares rfl) .nil)) (declares rfl) rfl
  case bigIntLiteral =>
    subst h
    exact .expression 3 (.record Bundled.bigIntLiteral [1] (by simp [bundled]) rfl rfl
      (.text (declares rfl) .nil)) (declares rfl) rfl
  case stringLiteral =>
    subst h
    exact .expression 4 (.record Bundled.stringLiteral [1] (by simp [bundled]) rfl rfl
      (.text (declares rfl) .nil)) (declares rfl) rfl
  case templateLiteral quasis values =>
    rw [List.forall_mem_append] at ih
    obtain ⟨-, ihvalues⟩ := ih
    obtain ⟨parts, hp, xs, hxs, rfl⟩ := h
    exact .expression 5 (.record Bundled.templateLiteral [1, 2] (by simp [bundled]) rfl rfl
      (.texts (declares rfl) (.lasts (expressions_show (Node.Supposed.all ihvalues) hxs)
        (declares rfl)))) (declares rfl) rfl
  case regExpLiteral =>
    subst h
    exact .expression 6 (.record Bundled.regExpLiteral [1, 2] (by simp [bundled]) rfl rfl
      (.text (declares rfl) (.text (declares rfl) .nil))) (declares rfl) rfl
  case booleanLiteral =>
    subst h
    exact .expression 7 (.record Bundled.booleanLiteral [1] (by simp [bundled]) rfl rfl
      (.text (declares rfl) .nil)) (declares rfl) rfl
  case nullLiteral =>
    subst h
    exact .expression 8 (.record Bundled.nullLiteral [] (by simp [bundled]) rfl rfl .nil)
      (declares rfl) rfl
  case thisExpression =>
    subst h
    exact .expression 9 (.record Bundled.thisExpression [] (by simp [bundled]) rfl rfl .nil)
      (declares rfl) rfl
  case arrayExpression values =>
    obtain ⟨xs, hxs, rfl⟩ := h
    exact arrayExpression_shows (Node.Supposed.all ih) hxs
  case objectExpression properties =>
    obtain ⟨xs, hxs, rfl⟩ := h
    exact .expression 11 (.record Bundled.objectExpression [1] (by simp [bundled]) rfl rfl
      (.lasts (objectFields_show (Node.Supposed.all ih) hxs) (declares rfl))) (declares rfl) rfl
  case functionExpression id params body =>
    obtain ⟨-, ihbody, ihparams⟩ := ih
    obtain ⟨ps, hps, xs, hxs, rfl⟩ := h
    have hname : MembersShow Bundled.functionExpression [1] [] (nameOrEmpty id) :=
      .nameOrEmpty (declares rfl) rfl
    have hps := parameters_show (Node.Supposed.all ihparams) hps
    have hxs := functionBody_shows ihbody.self hxs
    exact .expression 12 (.record Bundled.functionExpression [1, 2, 3, 4] (by simp [bundled])
      rfl rfl (hname.append (.choice (declares rfl)
        (.subs hps (declares rfl) (.lasts hxs (declares rfl)))))) (declares rfl) rfl
  case arrowFunctionExpression flags params body =>
    obtain ⟨ihbody, ihparams⟩ := ih
    obtain ⟨ps, hps, members, hm, rfl⟩ := h
    have hps := parameters_show (Node.Supposed.all ihparams) hps
    obtain ⟨i, hi, hbody⟩ := arrowBody_shows ihbody.self hm
    have hd : decides Bundled.arrowFunctionExpression [1, 2, i] = true := by
      simp only [List.mem_cons, List.not_mem_nil, or_false] at hi
      rcases hi with rfl | rfl <;> rfl
    exact .expression 13 (.record Bundled.arrowFunctionExpression [1, 2, i] (by simp [bundled])
      hd rfl (.choice (declares rfl) (.subs hps (declares rfl) hbody))) (declares rfl) rfl
  case callExpression optional callee arguments =>
    obtain ⟨ihcallee, iharguments⟩ := ih
    obtain ⟨c, hc, xs, hxs, rfl⟩ := h
    have hxs := expressions_show (Node.Supposed.all iharguments) hxs
    refine (Shows.expression 14 (.record Bundled.callExpression [1, 2, 3] (by simp [bundled])
      rfl rfl (.sub (ihcallee.self.expression hc) (declares rfl) (.subs hxs (declares rfl)
        (.text (declares rfl) .nil)))) (declares rfl) rfl).perm ?_
    rw [List.append_nil]
  case newExpression callee arguments =>
    obtain ⟨ihcallee, iharguments⟩ := ih
    obtain ⟨c, hc, xs, hxs, rfl⟩ := h
    exact .expression 15 (.record Bundled.newExpression [1, 2] (by simp [bundled]) rfl rfl
      (.sub (ihcallee.self.expression hc) (declares rfl)
        (.lasts (expressions_show (Node.Supposed.all iharguments) hxs) (declares rfl))))
      (declares rfl) rfl
  case memberExpression optional computed object property =>
    obtain ⟨ihobject, ihproperty, -⟩ := ih
    obtain ⟨o, ho, members, hm, rfl⟩ := h
    exact memberExpression_shows ihobject.self ihproperty.self ho hm
  case unaryExpression argument =>
    obtain ⟨ihargument, -⟩ := ih
    obtain ⟨y, hy, rfl⟩ := h
    exact .expression 17 (.record Bundled.unaryExpression [1, 2] (by simp [bundled]) rfl rfl
      (.text (declares rfl) (.last (ihargument.self.expression hy) (declares rfl))))
      (declares rfl) rfl
  case binaryExpression left right =>
    obtain ⟨ihleft, ihright, -⟩ := ih
    obtain ⟨l, hl, r, hr, rfl⟩ := h
    exact .expression 18 (.record Bundled.binaryExpression [1, 2, 3] (by simp [bundled]) rfl rfl
      (.text (declares rfl) (.sub (ihleft.self.expression hl) (declares rfl)
        (.last (ihright.self.expression hr) (declares rfl))))) (declares rfl) rfl
  case updateExpression argument =>
    obtain ⟨ihargument, -⟩ := ih
    obtain ⟨y, hy, rfl⟩ := h
    exact .expression 19 (.record Bundled.updateExpression [1, 2, 3] (by simp [bundled]) rfl rfl
      (.text (declares rfl) (.text (declares rfl)
        (.last (ihargument.self.expression hy) (declares rfl))))) (declares rfl) rfl
  case assignmentExpression left right =>
    obtain ⟨ihleft, ihright, -⟩ := ih
    obtain ⟨l, hl, r, hr, rfl⟩ := h
    exact .expression 20 (.record Bundled.assignmentExpression [1, 2, 3] (by simp [bundled]) rfl rfl
      (.text (declares rfl) (.sub (ihleft.self.expression hl) (declares rfl)
        (.last (ihright.self.expression hr) (declares rfl))))) (declares rfl) rfl
  case conditionalExpression test consequent alternate =>
    obtain ⟨ihtest, ihconsequent, ihalternate, -⟩ := ih
    obtain ⟨t, ht, y, hy, e, he, rfl⟩ := h
    exact .expression 21 (.record Bundled.conditionalExpression [1, 2, 3] (by simp [bundled])
      rfl rfl (.sub (ihtest.self.expression ht) (declares rfl)
        (.sub (ihconsequent.self.expression hy) (declares rfl)
          (.last (ihalternate.self.expression he) (declares rfl))))) (declares rfl) rfl
  case sequenceExpression values =>
    obtain ⟨xs, hxs, rfl⟩ := h
    exact .expression 22 (.record Bundled.sequenceExpression [1] (by simp [bundled]) rfl rfl
      (.lasts (expressions_show (Node.Supposed.all ih) hxs) (declares rfl))) (declares rfl) rfl
  case awaitExpression argument =>
    obtain ⟨ihargument, -⟩ := ih
    obtain ⟨y, hy, rfl⟩ := h
    exact .expression 23 (.record Bundled.awaitExpression [1] (by simp [bundled]) rfl rfl
      (.last (ihargument.self.expression hy) (declares rfl))) (declares rfl) rfl
  case yieldExpression delegate argument =>
    obtain ⟨ihargument, -⟩ := ih
    obtain ⟨members, hm, rfl⟩ := h
    have hargument : MembersShow Bundled.yieldExpression [1] _ members :=
      .optionally (fun _ => ihargument.self.expression) (declares rfl) rfl hm
    exact .expression 24 (.record Bundled.yieldExpression [2, 1] (by simp [bundled]) rfl rfl
      (.text (declares rfl) hargument)) (declares rfl) rfl
  case spreadElement argument =>
    obtain ⟨ihargument, -⟩ := ih
    obtain ⟨y, hy, rfl⟩ := h
    exact .expression 25 (.record Bundled.spreadElement [1] (by simp [bundled]) rfl rfl
      (.last (ihargument.self.expression hy) (declares rfl))) (declares rfl) rfl
  case parenthesizedExpression e =>
    obtain ⟨ihe, -⟩ := ih
    exact ihe.self.expression h
  case intrinsicIdentifier =>
    subst h
    exact .expression 26 (.record Bundled.v8IntrinsicIdentifier [1] (by simp [bundled]) rfl rfl
      (.text (declares rfl) .nil)) (declares rfl) rfl

-- ---------------------------------------------------------------------------
-- Whole trees
-- ---------------------------------------------------------------------------

theorem Node.WellFormed.shows (h : n.WellFormed) : n.Shows :=
  Node.Every.induction (fun _ hc ih => {
    statement := statement_shows hc ih
    expression := expression_shows ih
    parameter := parameter_shows ih
    declarator := declarator_shows ih
    field := objectField_shows ih
    target := loopTarget_shows ih
    block := blockBody_shows ih
    declarations := declarations_show ih
    handler := catchMember_shows hc ih
    members := classBody_shows ih }) h

/-- The records of the form of a script. -/
def Form.records (o : Form) : List TypedRecord := o.parts bundled (.message treeMessage)

theorem reached_marks (p : Program) :
    p.reached.filterMap Site.mark = marksOf .statement p.body := by
  rw [← marks_sites, Program.reached, List.filterMap_flatMap]
  rfl

theorem form_shows {p : Program} (hp : p.WellFormed) (h : p.form = .ok o) :
    Shows Bundled.ast (p.reached.filterMap Site.mark) o := by
  unfold Program.form at h
  simp only [bind_ok, pure_ok] at h
  obtain ⟨xs, hxs, rfl⟩ := h
  have hbody := statements_show (fun n hn => (hp.2 n hn).shows) hxs
  rw [reached_marks]
  exact .record _ [1] (by simp [bundled]) rfl rfl (.lasts hbody (declares rfl))

/-- Whatever a well-formed script is converted to, all choices in it are made, but for holes and for
accesses of which the property is not said. Holes are in arrays, and nowhere else. And the marks are
those of the script: an array has a hole where no element is given, and an access says to which
property it is unless that is written after a dot and has no name. -/
theorem form_decides {p : Program} (hp : p.WellFormed) (h : p.form = .ok o) :
    (∀ q ∈ o.records, q.IsDecided ∨ q.IsHole ∨ q.IsNameless) ∧
    (∀ q ∈ o.records, q.HasHole → q.type = Bundled.arrayExpression) ∧
    (p.reached.filterMap Site.mark).Perm (o.records.filterMap TypedRecord.mark) := by
  obtain ⟨hsound, hbears, -⟩ := form_shows hp h
  exact ⟨fun q hq => (hsound q hq).decided, fun q hq => (hsound q hq).holes, hbears⟩

/-- The script `[, this]`, which has a hole before its element. -/
def sparse : Program :=
  ⟨[], [.expressionStatement none (.arrayExpression none [.absent, .thisExpression none])]⟩

theorem sparse_wellFormed : sparse.WellFormed := by
  refine ⟨rfl, List.forall_mem_singleton.mpr (.mk rfl ?_)⟩
  refine List.forall_mem_singleton.mpr (.mk rfl ?_)
  exact List.forall_mem_cons.mpr ⟨.leaf rfl rfl, List.forall_mem_singleton.mpr (.leaf rfl rfl)⟩

theorem sparse_decides : sparse.WellFormed ∧ ∃ o, sparse.form = .ok o ∧
    (∀ q ∈ o.records, q.IsDecided ∨ q.IsHole ∨ q.IsNameless) ∧
    (∀ q ∈ o.records, q.HasHole → q.type = Bundled.arrayExpression) ∧
    (sparse.reached.filterMap Site.mark).Perm (o.records.filterMap TypedRecord.mark) :=
  ⟨sparse_wellFormed, _, rfl, form_decides sparse_wellFormed rfl⟩

/-- The script `this.#x`. -/
def hiddenAccess : Program :=
  ⟨[], [.expressionStatement none (.memberExpression none false false false (.thisExpression none)
    (.privateName none (.identifier none (Text.ofString "x"))))]⟩

theorem hiddenAccess_wellFormed : hiddenAccess.WellFormed := by
  refine ⟨rfl, List.forall_mem_singleton.mpr (.mk rfl ?_)⟩
  refine List.forall_mem_singleton.mpr (.mk rfl ?_)
  refine List.forall_mem_cons.mpr ⟨.leaf rfl rfl, List.forall_mem_singleton.mpr (.mk rfl ?_)⟩
  exact List.forall_mem_singleton.mpr (.leaf rfl rfl)

theorem isNameless_of_mark {q : TypedRecord} (h : q.mark = some (.access false)) :
    q.IsNameless := by
  unfold TypedRecord.mark at h
  split at h
  · split at h <;> cases h
  · split at h
    · rename_i hq
      simp only [Option.some.injEq, Mark.access.injEq, Bool.not_eq_false', List.isEmpty_iff] at h
      exact ⟨hq, h⟩
    · cases h

theorem TypedRecord.IsNameless.not_isDecided {q : TypedRecord} (h : q.IsNameless) :
    ¬q.IsDecided := by
  intro hd
  obtain ⟨hq, hchosen⟩ := h
  have hf : Bundled.within "property" (Bundled.text 2 "name") ∈ q.type.fields := by
    rw [hq]
    exact List.mem_cons_of_mem _ (List.mem_cons_self ..)
  obtain ⟨m, hm⟩ := hd _ hf "property" rfl (by decide)
  rw [hchosen] at hm
  cases hm

/-- An access to a private name is converted to one that does not say to which. -/
theorem private_access_undecided :
    ¬∀ (p : Program) (o : Form), p.WellFormed → p.form = .ok o →
      ∀ q ∈ o.records, q.IsDecided ∨ q.IsHole := by
  intro h
  obtain ⟨o, ho⟩ : ∃ o, hiddenAccess.form = .ok o := ⟨_, rfl⟩
  have hmark : Mark.access false ∈ hiddenAccess.reached.filterMap Site.mark := by
    rw [reached_marks, hiddenAccess, marksOf_cons, marks_eq]
    simp [Site.mark, Site.parts, Node.statementSites, marks_sites, marksOf_cons, marks_eq,
      Node.expressionSites, Node.name?]
  have hbears := (form_shows hiddenAccess_wellFormed ho).bears
  obtain ⟨q, hq, hnameless⟩ := List.mem_filterMap.mp (hbears.mem_iff.mp hmark)
  have hnameless := isNameless_of_mark hnameless
  rcases h _ _ hiddenAccess_wellFormed ho q hq with hd | hhole
  · exact hnameless.not_isDecided hd
  · have hsame := hnameless.1.symm.trans hhole.1
    exact absurd (congrArg (·.fields.length) hsame) (by decide)

end Treewire.Script
