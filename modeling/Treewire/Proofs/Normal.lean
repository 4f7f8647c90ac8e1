import Treewire.Proofs.Converted
import Treewire.Proofs.WellFormed

/-!
# Normal forms of scripts

What is left of a tree when everything goes that has no influence on its form: places, directives,
cooked texts, shorthand marks, parentheses, the marks of optional chains and of logical operations,
and more, as said at each function. `form_norm` states that the normal form of a script has the same
form as the script.
-/

namespace Treewire.Script

-- ---------------------------------------------------------------------------
-- Normal forms
-- ---------------------------------------------------------------------------

namespace Node

/-- A node that gives its name as a string. -/
def named (name : Text) : Node := .stringLiteral none name

def numberName (x : Binary64) : Text := Text.ofString (DecimalLayout.script.shortest x)

/-- The key of a property that is not computed: an integer stays, anything else is a name. -/
def writtenKey : Node → Node
  | .identifier _ name | .stringLiteral _ name => named name
  | .numericLiteral _ x => if x.toInt?.isSome then .numericLiteral none x else named (numberName x)
  | _ => .absent

/-- The key of a method of an object, for which an integer is a name too. -/
def methodKey : Node → Node
  | .identifier _ name | .stringLiteral _ name => named name
  | .numericLiteral _ x => named (numberName x)
  | _ => .absent

/-- The name of a method of a class, whatever kind of key it is written as. -/
def memberName (key : Node) : Text :=
  match key.name? with
  | some (c :: rest) => c :: rest
  | _ => key.valueText?.getD (Text.ofString "undefined")

/-- The head of a loop over a collection: the kind of a declaration goes, and the declaration too if
it only gives a name. -/
def head : Node → Node
  | .variableDeclaration _ _ [.variableDeclarator _ id .absent] => id
  | .variableDeclaration _ _ declarations => .variableDeclaration none [] declarations
  | n => n

/-- The members of a class, all properties before all methods. -/
def arranged (members : List Node) : List Node :=
  members.filter isProperty ++ members.filter isMethod

mutual

/-- The normal form of a node. -/
@[simp] def norm : Node → Node
  | .absent => .absent
  | .incomplete _ type => .incomplete none type
  | .other _ type name value => .other none type name value
  | .emptyStatement _ => .emptyStatement none
  | .blockStatement _ _ body => .blockStatement none [] (norms body)
  | .variableDeclaration _ kind declarations => .variableDeclaration none kind (norms declarations)
  | .variableDeclarator _ id init => .variableDeclarator none (norm id) (norm init)
  | .functionDeclaration _ flags id params body =>
    .functionDeclaration none flags (norm id) (norms params) (norm body)
  | .classDeclaration _ id superClass body =>
    .classDeclaration none (norm id) (norm superClass) (norm body)
  | .classBody _ body => .classBody none (arranged (norms body))
  | .classProperty _ isStatic computed key value =>
    .classProperty none isStatic computed (if computed then norm key else writtenKey key)
      (norm value)
  | .classMethod _ isStatic computed kind _ key params body =>
    .classMethod none isStatic computed kind ⟨false, false⟩ (named (memberName key)) (norms params)
      (norm body)
  | .returnStatement _ argument => .returnStatement none (norm argument)
  | .expressionStatement _ e => .expressionStatement none (norm e)
  | .ifStatement _ test consequent alternate =>
    .ifStatement none (norm test) (norm consequent) (norm alternate)
  | .whileStatement _ test body => .whileStatement none (norm test) (norm body)
  | .doWhileStatement _ body test => .doWhileStatement none (norm body) (norm test)
  | .forStatement _ init test update body =>
    .forStatement none (norm init) (norm test) (norm update) (norm body)
  | .forInStatement _ left right body =>
    .forInStatement none (head (norm left)) (norm right) (norm body)
  | .forOfStatement _ _ left right body =>
    .forOfStatement none false (head (norm left)) (norm right) (norm body)
  | .breakStatement _ label => .breakStatement none (norm label)
  | .continueStatement _ label => .continueStatement none (norm label)
  | .tryStatement _ block handler finalizer =>
    .tryStatement none (norm block) (norm handler) (norm finalizer)
  | .catchClause _ param body => .catchClause none (norm param) (norm body)
  | .throwStatement _ argument => .throwStatement none (norm argument)
  | .switchStatement _ discriminant cases =>
    .switchStatement none (norm discriminant) (norms cases)
  | .switchCase _ test consequent => .switchCase none (norm test) (norms consequent)
  | .assignmentPattern _ left right => .assignmentPattern none (norm left) (norm right)
  | .restElement _ argument => .restElement none (norm argument)
  | .identifier _ name => .identifier none name
  | .privateName _ id => .privateName none (norm id)
  | .numericLiteral _ value => .numericLiteral none value
  | .bigIntLiteral _ value => .bigIntLiteral none value
  | .stringLiteral _ value => .stringLiteral none value
  | .templateLiteral _ quasis expressions =>
    .templateLiteral none (norms quasis) (norms expressions)
  | .templateElement _ raw _ => .templateElement none raw none
  | .regExpLiteral _ pattern flags => .regExpLiteral none pattern flags
  | .booleanLiteral _ value => .booleanLiteral none value
  | .nullLiteral _ => .nullLiteral none
  | .thisExpression _ => .thisExpression none
  | .arrayExpression _ elements => .arrayExpression none (norms elements)
  | .objectExpression _ properties => .objectExpression none (norms properties)
  | .objectProperty _ computed _ key value =>
    .objectProperty none computed false (if computed then norm key else writtenKey key) (norm value)
  | .objectMethod _ computed kind flags key params body =>
    .objectMethod none computed kind flags (if computed then norm key else methodKey key)
      (norms params) (norm body)
  | .functionExpression _ flags id params body =>
    .functionExpression none flags (norm id) (norms params) (norm body)
  | .arrowFunctionExpression _ flags params body =>
    .arrowFunctionExpression none flags (norms params) (norm body)
  | .callExpression _ _ optional callee arguments =>
    .callExpression none false optional (norm callee) (norms arguments)
  | .newExpression _ callee arguments => .newExpression none (norm callee) (norms arguments)
  | .memberExpression _ _ optional computed object property =>
    .memberExpression none false optional computed (norm object) (norm property)
  | .unaryExpression _ operator argument => .unaryExpression none operator (norm argument)
  | .binaryExpression _ _ operator left right =>
    .binaryExpression none false operator (norm left) (norm right)
  | .updateExpression _ operator first argument =>
    .updateExpression none operator first (norm argument)
  | .assignmentExpression _ operator left right =>
    .assignmentExpression none operator (norm left) (norm right)
  | .conditionalExpression _ test consequent alternate =>
    .conditionalExpression none (norm test) (norm consequent) (norm alternate)
  | .sequenceExpression _ expressions => .sequenceExpression none (norms expressions)
  | .awaitExpression _ argument => .awaitExpression none (norm argument)
  | .yieldExpression _ delegate argument => .yieldExpression none delegate (norm argument)
  | .spreadElement _ argument => .spreadElement none (norm argument)
  | .parenthesizedExpression _ e => norm e
  | .intrinsicIdentifier _ name => .intrinsicIdentifier none name

def norms : List Node → List Node
  | [] => []
  | n :: rest => norm n :: norms rest

end

theorem norms_eq_map (ns : List Node) : norms ns = ns.map norm := by
  induction ns with
  | nil => rfl
  | cons n rest ih => rw [norms, ih, List.map_cons]

end Node

/-- The normal form of a script, without directives. -/
def Program.norm (p : Program) : Program := ⟨[], Node.norms p.body⟩

-- ---------------------------------------------------------------------------
-- Plain scripts
-- ---------------------------------------------------------------------------

/-- What holds of the nodes of usual scripts beyond what is promised: bodies of functions and
methods are blocks, names are not empty, and a property that is not computed is asked for by an
identifier, not by a private name. -/
def Node.plain : Node → Bool
  | .functionDeclaration _ _ _ _ body | .functionExpression _ _ _ _ body
  | .objectMethod _ _ _ _ _ _ body | .classMethod _ _ _ _ _ _ _ body => body.isBlock
  | .identifier _ name => !name.isEmpty
  | .memberExpression _ _ _ computed _ property => computed || property.isIdentifier
  | _ => true

def Node.proper (n : Node) : Bool := n.complete && n.plain

-- ---------------------------------------------------------------------------
-- What each position keeps
-- ---------------------------------------------------------------------------

variable {n : Node}

/-- The normal form of a node is converted like the node. -/
structure Node.Kept (n : Node) : Prop where
  statement (h : Script.statement n = .ok x) : Script.statement n.norm = .ok x
  expression (h : Script.expression n = .ok x) : Script.expression n.norm = .ok x
  parameter (h : Script.parameter n = .ok x) : Script.parameter n.norm = .ok x
  declarator (h : Script.declarator n = .ok x) : Script.declarator n.norm = .ok x
  target (h : loopTarget n = .ok x) : loopTarget n.norm.head = .ok x
  field (h : objectField n = .ok x) : objectField n.norm = .ok x
  block (hb : n.isBlock = true) (h : blockBody n = .ok xs) : blockBody n.norm = .ok xs
  members (hb : n.isClassBody = true) (h : Script.classBody n = .ok y) :
    Script.classBody n.norm = .ok y

/-- What is supposed of the nodes below. -/
abbrev Node.Keeps : Node → Prop := Node.Supposed Node.proper Node.Kept

-- ---------------------------------------------------------------------------
-- Lists
-- ---------------------------------------------------------------------------

theorem statements_norm {ns : List Node} (ih : ∀ n ∈ ns, n.Kept) (h : statements ns = .ok xs) :
    statements (Node.norms ns) = .ok xs := by
  rw [statements_eq_mapM, mapM_ok] at h ⊢
  rw [Node.norms_eq_map]
  exact h.map fun n hn _ => (ih n hn).statement

theorem expressions_norm {ns : List Node} (ih : ∀ n ∈ ns, n.Kept) (h : expressions ns = .ok xs) :
    expressions (Node.norms ns) = .ok xs := by
  rw [expressions_eq_mapM, mapM_ok] at h ⊢
  rw [Node.norms_eq_map]
  exact h.map fun n hn _ => (ih n hn).expression

theorem parameters_norm {ns : List Node} (ih : ∀ n ∈ ns, n.Kept) (h : parameters ns = .ok xs) :
    parameters (Node.norms ns) = .ok xs := by
  rw [parameters_eq_mapM, mapM_ok] at h ⊢
  rw [Node.norms_eq_map]
  exact h.map fun n hn _ => (ih n hn).parameter

theorem declarators_norm {ns : List Node} (ih : ∀ n ∈ ns, n.Kept) (h : declarators ns = .ok xs) :
    declarators (Node.norms ns) = .ok xs := by
  rw [declarators_eq_mapM, mapM_ok] at h ⊢
  rw [Node.norms_eq_map]
  exact h.map fun n hn _ => (ih n hn).declarator

theorem objectFields_norm {ns : List Node} (ih : ∀ n ∈ ns, n.Kept)
    (h : objectFields ns = .ok xs) : objectFields (Node.norms ns) = .ok xs := by
  rw [objectFields_eq_mapM, mapM_ok] at h ⊢
  rw [Node.norms_eq_map]
  exact h.map fun n hn _ => (ih n hn).field

theorem element_of_expression (h : expression n = .ok x) : element n = .ok x := by
  cases n with
  | absent => cases h
  | _ => exact h

theorem elements_norm {ns : List Node} (ih : ∀ n ∈ ns, n.Kept) (h : elements ns = .ok xs) :
    elements (Node.norms ns) = .ok xs := by
  rw [elements_eq_mapM, mapM_ok] at h ⊢
  rw [Node.norms_eq_map]
  refine h.map fun n hn x hx => ?_
  unfold element at hx
  split at hx
  · exact hx
  · exact element_of_expression ((ih n hn).expression hx)

theorem templateParts_norm {ns : List Node} (h : templateParts ns = .ok xs) :
    templateParts (Node.norms ns) = .ok xs := by
  induction ns generalizing xs with
  | nil => exact h
  | cons n rest ih =>
    cases n <;> simp only [templateParts, bind_ok, pure_ok, throw_ok] at h
    obtain ⟨xs, hxs, rfl⟩ := h
    simp only [Node.norms, Node.norm, templateParts, bind_ok, pure_ok]
    exact ⟨xs, ih hxs, rfl⟩

-- ---------------------------------------------------------------------------
-- Parts of nodes
-- ---------------------------------------------------------------------------

theorem statement_absent (x : Form) : statement .absent ≠ .ok x := nofun

theorem expression_absent (x : Form) : expression .absent ≠ .ok x := nofun

theorem parameter_absent (x : Form) : parameter .absent ≠ .ok x := nofun

theorem finallyClause_absent (x : Form) : finallyClause .absent ≠ .ok x := nofun

theorem optionally_norm {f : Node → Converted Form}
    (h : optionally key n (fun _ => f n) = .ok members)
    (hf : ∀ x, f n = .ok x → f n.norm = .ok x) (ha : ∀ x, f .absent ≠ .ok x) :
    optionally key n.norm (fun _ => f n.norm) = .ok members := by
  unfold optionally at h
  split at h
  · exact h
  · simp only [bind_ok, pure_ok] at h
    obtain ⟨x, hx, rfl⟩ := h
    have hn := hf x hx
    unfold optionally
    split
    · rename_i he
      rw [he] at hn
      exact (ha x hn).elim
    · rw [hn]
      rfl

theorem functionBody_norm (hb : n.isBlock = true) (ih : n.Kept)
    (h : functionBody n (fun _ => blockBody n) (fun _ => statement n) = .ok xs) :
    functionBody n.norm (fun _ => blockBody n.norm) (fun _ => statement n.norm) = .ok xs := by
  cases n <;> simp only [Node.isBlock, Bool.false_eq_true] at hb
  exact ih.block rfl h

theorem arrowBody_norm (hc : n.proper = true) (ih : n.Kept)
    (h : arrowBody n (fun _ => blockBody n) (fun _ => expression n) = .ok members) :
    arrowBody n.norm (fun _ => blockBody n.norm) (fun _ => expression n.norm) = .ok members := by
  unfold arrowBody at h
  split at h
  · simp only [bind_ok, pure_ok] at h
    obtain ⟨xs, hxs, rfl⟩ := h
    have hxs := ih.block rfl hxs
    rw [Node.norm] at hxs ⊢
    simp only [arrowBody, hxs]
    rfl
  · simp [Node.proper, Node.complete] at hc
  · simp only [bind_ok, pure_ok] at h
    obtain ⟨x, hx, rfl⟩ := h
    have hx := ih.expression hx
    -- No block is an expression, so the body is none even without its parentheses.
    unfold arrowBody
    split
    · rename_i he
      rw [he] at hx
      simp [expression] at hx
    · rename_i he
      rw [he] at hx
      simp [expression] at hx
    · rw [hx]
      rfl

theorem writtenKey_norm (h : plainKey n = .ok members) : plainKey n.writtenKey = .ok members := by
  cases n <;> simp only [plainKey, refuseAt_ok] at h
  case identifier => exact h
  case stringLiteral => exact h
  case numericLiteral x =>
    rw [Node.writtenKey]
    split
    · exact h
    · rename_i hx
      rw [if_neg hx] at h
      exact h

theorem propertyKey_norm (ih : n.Kept)
    (h : propertyKey computed n (fun _ => expression n) = .ok members) :
    let key := if computed then n.norm else n.writtenKey
    propertyKey computed key (fun _ => expression key) = .ok members := by
  cases computed with
  | false => exact writtenKey_norm h
  | true =>
    simp only [propertyKey, bind_ok, pure_ok, ↓reduceIte] at h ⊢
    obtain ⟨x, hx, rfl⟩ := h
    exact ⟨x, ih.expression hx, rfl⟩

theorem methodKey_norm (ih : n.Kept)
    (h : propertyKey computed n (fun _ => expression n) = .ok members) :
    let key := if computed then n.norm else n.methodKey
    ∃ ms, propertyKey computed key (fun _ => expression key) = .ok ms ∧
      nameOnly ms = nameOnly members := by
  cases computed with
  | false =>
    simp only [propertyKey, Bool.false_eq_true, ↓reduceIte] at h ⊢
    cases n <;> simp only [plainKey, pure_ok, refuseAt_ok] at h
    case identifier =>
      subst h
      exact ⟨_, rfl, rfl⟩
    case stringLiteral =>
      subst h
      exact ⟨_, rfl, rfl⟩
    case numericLiteral x =>
      subst h
      refine ⟨_, rfl, ?_⟩
      split <;> rfl
  | true =>
    simp only [propertyKey, bind_ok, pure_ok, ↓reduceIte] at h ⊢
    obtain ⟨x, hx, rfl⟩ := h
    exact ⟨_, ⟨x, ih.expression hx, rfl⟩, rfl⟩

theorem methodName_norm (h : methodName n = .ok name) :
    methodName (.named n.memberName) = .ok name := by
  unfold methodName at h
  split at h
  · simp at h
  · exact h

theorem memberProperty_norm (hp : (computed || n.isIdentifier) = true) (ih : n.Kept)
    (h : memberProperty computed n (fun _ => expression n) = .ok members) :
    memberProperty computed n.norm (fun _ => expression n.norm) = .ok members := by
  cases computed with
  | false => cases n <;> first | exact h | cases hp
  | true =>
    simp only [memberProperty, bind_ok, pure_ok] at h ⊢
    obtain ⟨x, hx, rfl⟩ := h
    exact ⟨x, ih.expression hx, rfl⟩

theorem declarationMembers_norm {declarations : List Node} (ih : ∀ d ∈ declarations, d.Kept)
    (h : declarationMembers (.variableDeclaration p kind declarations) kind
      (fun _ => declarators declarations) = .ok members) :
    declarationMembers (.variableDeclaration none kind (Node.norms declarations)) kind
      (fun _ => declarators (Node.norms declarations)) = .ok members := by
  unfold declarationMembers at h ⊢
  split at h
  · simp [Node.refuse, Node.typeAndPlace?, Node.typeAndPlace?.known] at h
  · simp only [bind_ok, pure_ok] at h ⊢
    obtain ⟨xs, hxs, rfl⟩ := h
    exact ⟨xs, declarators_norm ih hxs, rfl⟩

theorem loopStart_norm (ih : n.Keeps)
    (h : loopStart n (fun _ => declarations n) (fun _ => expression n) = .ok members) :
    loopStart n.norm (fun _ => declarations n.norm) (fun _ => expression n.norm) = .ok members := by
  unfold loopStart at h
  split at h
  · exact h
  · simp only [bind_ok, pure_ok] at h
    obtain ⟨ms, hms, rfl⟩ := h
    have hms := declarationMembers_norm (Node.Supposed.all ih.deeper) hms
    simp only [Node.norm, loopStart, bind_ok, pure_ok]
    exact ⟨ms, hms, rfl⟩
  · simp only [bind_ok, pure_ok] at h
    obtain ⟨x, hx, rfl⟩ := h
    have hx := ih.self.expression hx
    unfold loopStart
    split
    · rename_i he
      rw [he] at hx
      cases hx
    · rename_i he
      rw [he] at hx
      simp [expression] at hx
    · rw [hx]
      rfl

-- ---------------------------------------------------------------------------
-- Bindings
-- ---------------------------------------------------------------------------

theorem parameter_norm (ih : ∀ c ∈ n.children, c.Keeps) (h : parameter n = .ok x) :
    parameter n.norm = .ok x := by
  unfold parameter at h
  split at h
  · exact h
  · simp only [Node.children, List.forall_mem_cons] at ih
    obtain ⟨-, ihright, -⟩ := ih
    simp only [bind_ok, pure_ok] at h
    obtain ⟨y, hy, rfl⟩ := h
    simp only [Node.norm, parameter, ihright.self.expression hy]
    rfl
  · simp at h
  · exact h
  · simp at h
  · simp at h

theorem declarator_norm (ih : ∀ c ∈ n.children, c.Keeps) (h : declarator n = .ok x) :
    declarator n.norm = .ok x := by
  unfold declarator at h
  split at h
  · simp only [Node.children, List.forall_mem_cons] at ih
    obtain ⟨-, ihinit, -⟩ := ih
    simp only [bind_ok, pure_ok] at h
    obtain ⟨members, hm, rfl⟩ := h
    have hm := optionally_norm hm (fun _ => ihinit.self.expression) expression_absent
    simp only [Node.norm, declarator, hm]
    rfl
  · simp at h
  · simp at h

theorem loopTarget_norm (ih : ∀ c ∈ n.children, c.Keeps) (h : loopTarget n = .ok x) :
    loopTarget n.norm.head = .ok x := by
  unfold loopTarget at h
  split at h
  · rename_i declaration
    have hd := (ih declaration List.mem_cons_self).self.declarator h
    unfold declarator at h
    split at h
    · rename_i p name init
      rw [Node.norm, Node.norms, Node.norms]
      simp only [Node.norm] at hd ⊢
      generalize init.norm = init at hd
      cases init with
      | absent => exact hd
      | _ => exact hd
    · simp at h
    · simp at h
  · exact h
  · simp at h

theorem catchMember_norm (ih : n.Keeps) (h : catchMember n = .ok members) :
    catchMember n.norm = .ok members := by
  have hc := ih.holds
  have ih := ih.deeper
  cases n <;> simp only [catchMember, throw_ok, bind_ok, pure_ok] at h
  case absent => rw [← h]; rfl
  case catchClause param body =>
    simp only [Node.proper, Node.complete, Node.plain, Bool.and_true] at hc
    simp only [Node.children, List.forall_mem_cons] at ih
    obtain ⟨ihparam, ihbody, -⟩ := ih
    obtain ⟨xs, hxs, found, hf, rfl⟩ := h
    simp only [Node.norm, catchMember, bind_ok, pure_ok]
    exact ⟨xs, ihbody.self.block hc hxs, found,
      optionally_norm hf (fun _ => ihparam.self.parameter) parameter_absent, rfl⟩

theorem switchCases_norm {ns : List Node} (ih : ∀ n ∈ ns, n.Keeps)
    (h : switchCases ns = .ok xs) : switchCases (Node.norms ns) = .ok xs := by
  rw [switchCases_eq_mapM, mapM_ok] at h ⊢
  rw [Node.norms_eq_map]
  refine h.map fun n hn x hx => ?_
  have ih := (ih n hn).deeper
  cases n <;> simp only [switchCase, throw_ok, bind_ok, pure_ok] at hx
  case switchCase test consequent =>
    simp only [Node.children, List.forall_mem_cons] at ih
    obtain ⟨ihtest, ihconsequent⟩ := ih
    obtain ⟨xs, hxs, members, hm, rfl⟩ := hx
    simp only [Node.norm, switchCase, bind_ok, pure_ok]
    exact ⟨xs, statements_norm (Node.Supposed.all ihconsequent) hxs, members,
      optionally_norm hm (fun _ => ihtest.self.expression) expression_absent, rfl⟩

-- ---------------------------------------------------------------------------
-- Fields and members
-- ---------------------------------------------------------------------------

theorem objectField_norm (hc : n.proper = true) (ih : ∀ c ∈ n.children, c.Keeps)
    (h : objectField n = .ok x) : objectField n.norm = .ok x := by
  cases n <;> simp only [objectField, bind_ok, pure_ok, refuseAt_ok] at h <;>
    simp only [Node.children, List.forall_mem_cons] at ih
  case objectProperty key value =>
    obtain ⟨ihkey, ihvalue, -⟩ := ih
    obtain ⟨v, hv, members, hm, rfl⟩ := h
    simp only [Node.norm, objectField, bind_ok, pure_ok]
    exact ⟨v, ihvalue.self.expression hv, members, propertyKey_norm ihkey.self hm, rfl⟩
  case objectMethod key params body =>
    simp only [Node.proper, Node.plain, Bool.and_eq_true] at hc
    obtain ⟨-, hb⟩ := hc
    obtain ⟨ihkey, ihbody, ihparams⟩ := ih
    obtain ⟨members, hm, ps, hps, xs, hxs, rfl⟩ := h
    obtain ⟨ms, hms, he⟩ := methodKey_norm ihkey.self hm
    simp only [Node.norm, objectField, bind_ok, pure_ok]
    refine ⟨ms, hms, ps, parameters_norm (Node.Supposed.all ihparams) hps, xs,
      functionBody_norm hb ihbody.self hxs, ?_⟩
    rw [he]
  case spreadElement argument =>
    obtain ⟨ihargument, -⟩ := ih
    obtain ⟨y, hy, rfl⟩ := h
    simp only [Node.norm, objectField, bind_ok, pure_ok]
    exact ⟨y, ihargument.self.expression hy, rfl⟩

theorem classProperty_norm (ih : ∀ c ∈ n.children, c.Keeps) (h : classProperty n = .ok x) :
    classProperty n.norm = .ok x := by
  cases n <;> simp only [classProperty, bind_ok, pure_ok, throw_ok] at h
  simp only [Node.children, List.forall_mem_cons] at ih
  obtain ⟨ihkey, ihvalue, -⟩ := ih
  obtain ⟨named, hn, valued, hv, rfl⟩ := h
  simp only [Node.norm, classProperty, bind_ok, pure_ok]
  exact ⟨named, propertyKey_norm ihkey.self hn, valued,
    optionally_norm hv (fun _ => ihvalue.self.expression) expression_absent, rfl⟩

theorem classMethod_norm (hc : n.proper = true) (ih : ∀ c ∈ n.children, c.Keeps)
    (h : classMethod n = .ok x) : classMethod n.norm = .ok x := by
  cases n <;> simp only [classMethod, throw_ok] at h
  case classMethod computed _ _ key params body =>
    simp only [Node.proper, Node.plain, Bool.and_eq_true] at hc
    simp only [Node.children, List.forall_mem_cons] at ih
    obtain ⟨-, hb⟩ := hc
    obtain ⟨-, ihbody, ihparams⟩ := ih
    cases computed <;> simp only [bind_ok, pure_ok, throw_ok] at h
    obtain ⟨name, hn, ps, hps, xs, hxs, rfl⟩ := h
    simp only [Node.norm, classMethod, bind_ok, pure_ok]
    exact ⟨name, methodName_norm hn, ps, parameters_norm (Node.Supposed.all ihparams) hps, xs,
      functionBody_norm hb ihbody.self hxs, rfl⟩

namespace Node

theorem filter_isProperty_arranged (ns : List Node) :
    (arranged ns).filter isProperty = ns.filter isProperty := by
  have hm : ∀ n : Node, (n.isProperty && n.isMethod) = false := by
    intro n
    cases n <;> rfl
  simp [arranged, List.filter_filter, hm]

theorem filter_isMethod_arranged (ns : List Node) :
    (arranged ns).filter isMethod = ns.filter isMethod := by
  have hm : ∀ n : Node, (n.isMethod && n.isProperty) = false := by
    intro n
    cases n <;> rfl
  simp [arranged, List.filter_filter, hm]

/-- Normal forms are still properties or methods. -/
theorem kind_norm {n : Node} (h : n.isProperty = true ∨ n.isMethod = true) :
    n.norm.isProperty = n.isProperty ∧ n.norm.isMethod = n.isMethod := by
  rcases h with h | h
  · cases n <;> first | exact ⟨rfl, rfl⟩ | cases h
  · cases n <;> first | exact ⟨rfl, rfl⟩ | cases h

theorem filter_norms {ns : List Node} {p : Node → Bool} (h : ∀ n ∈ ns, p n.norm = p n) :
    (norms ns).filter p = (ns.filter p).map norm := by
  rw [norms_eq_map, List.filter_map]
  exact congrArg _ (List.filter_congr h)

end Node

theorem classBody_norm (ih : ∀ c ∈ n.children, c.Keeps) (hb : n.isClassBody = true)
    (h : classBody n = .ok y) : classBody n.norm = .ok y := by
  cases n <;> simp only [Node.isClassBody, Bool.false_eq_true] at hb
  case classBody body =>
    obtain ⟨properties, methods⟩ := y
    obtain ⟨hp, hm, hall⟩ := classMembers_ok.mp h
    refine classMembers_ok.mpr ⟨?_, ?_, fun n hn => ?_⟩
    · rw [Node.filter_isProperty_arranged, Node.filter_norms fun n hn => (Node.kind_norm (hall n hn)).1]
      exact hp.map fun n hn _ => classProperty_norm (ih n (List.mem_filter.mp hn).1).deeper
    · rw [Node.filter_isMethod_arranged, Node.filter_norms fun n hn => (Node.kind_norm (hall n hn)).2]
      refine hm.map fun n hn _ => ?_
      have ih := ih n (List.mem_filter.mp hn).1
      exact classMethod_norm ih.holds ih.deeper
    · rcases List.mem_append.mp hn with hn | hn
      · exact .inl (List.mem_filter.mp hn).2
      · exact .inr (List.mem_filter.mp hn).2

-- ---------------------------------------------------------------------------
-- Statements
-- ---------------------------------------------------------------------------

theorem blockBody_norm (ih : ∀ c ∈ n.children, c.Keeps) (hb : n.isBlock = true)
    (h : blockBody n = .ok xs) : blockBody n.norm = .ok xs := by
  cases n <;> simp only [Node.isBlock, Bool.false_eq_true] at hb
  exact statements_norm (Node.Supposed.all ih) h

theorem finallyClause_norm (hb : n.isOptional Node.isBlock = true) (ih : n.Kept)
    (h : finallyClause n = .ok x) : finallyClause n.norm = .ok x := by
  simp only [finallyClause, bind_ok, pure_ok] at h ⊢
  obtain ⟨xs, hxs, rfl⟩ := h
  refine ⟨xs, ?_, rfl⟩
  cases n <;> simp only [Node.isOptional, Node.isPresent, Node.isBlock, Bool.not_true,
    Bool.or_self, Bool.false_eq_true] at hb
  case absent => exact hxs
  case blockStatement => exact ih.block rfl hxs

theorem nameMember_norm (hi : n.isIdentifier = true) (h : nameMember key n = .ok members) :
    nameMember key n.norm = .ok members := by
  cases n <;> first | exact h | cases hi

theorem nameOrEmpty_norm (hi : n.isOptional Node.isIdentifier = true) :
    nameOrEmpty n.norm = nameOrEmpty n := by
  cases n <;> first | rfl | cases hi

theorem labelMember_norm (hi : n.isOptional Node.isIdentifier = true) :
    labelMember n.norm = labelMember n := by
  cases n <;> first | rfl | cases hi

theorem statement_norm (hc : n.proper = true) (ih : ∀ c ∈ n.children, c.Keeps)
    (h : statement n = .ok x) : statement n.norm = .ok x := by
  rw [Node.proper, Bool.and_eq_true] at hc
  obtain ⟨hc, hp⟩ := hc
  cases n <;> simp only [statement, bind_ok, pure_ok, refuseAt_ok] at h <;>
    simp only [Node.norm, statement, bind_ok, pure_ok] <;>
    simp only [Node.children, List.forall_mem_cons] at ih <;>
    simp only [Node.complete, Node.plain, Bool.and_eq_true] at hc hp
  case emptyStatement => exact h
  case blockStatement body =>
    obtain ⟨xs, hxs, rfl⟩ := h
    exact ⟨xs, statements_norm (Node.Supposed.all ih) hxs, rfl⟩
  case variableDeclaration list =>
    obtain ⟨members, hm, rfl⟩ := h
    exact ⟨members, declarationMembers_norm (Node.Supposed.all ih) hm, rfl⟩
  case functionDeclaration id params body =>
    obtain ⟨-, ihbody, ihparams⟩ := ih
    obtain ⟨name, hn, ps, hps, xs, hxs, rfl⟩ := h
    exact ⟨name, nameMember_norm hc.1.1 hn, ps, parameters_norm (Node.Supposed.all ihparams) hps,
      xs, functionBody_norm hp ihbody.self hxs, rfl⟩
  case classDeclaration id superClass body =>
    obtain ⟨-, ihsuper, ihbody, -⟩ := ih
    obtain ⟨parent, hparent, members, hm, rfl⟩ := h
    rw [nameOrEmpty_norm hc.1]
    exact ⟨parent,
      optionally_norm hparent (fun _ => ihsuper.self.expression) expression_absent, members,
      ihbody.self.members hc.2 hm, rfl⟩
  case returnStatement argument =>
    obtain ⟨ihargument, -⟩ := ih
    obtain ⟨members, hm, rfl⟩ := h
    exact ⟨members, optionally_norm hm (fun _ => ihargument.self.expression) expression_absent, rfl⟩
  case expressionStatement e =>
    obtain ⟨ihe, -⟩ := ih
    obtain ⟨y, hy, rfl⟩ := h
    exact ⟨y, ihe.self.expression hy, rfl⟩
  case ifStatement test consequent alternate =>
    obtain ⟨ihtest, ihconsequent, ihalternate, -⟩ := ih
    obtain ⟨t, ht, yes, hy, no, hn, rfl⟩ := h
    exact ⟨t, ihtest.self.expression ht, yes, ihconsequent.self.statement hy, no,
      optionally_norm hn (fun _ => ihalternate.self.statement) statement_absent, rfl⟩
  case whileStatement test body =>
    obtain ⟨ihtest, ihbody, -⟩ := ih
    obtain ⟨t, ht, b, hb, rfl⟩ := h
    exact ⟨t, ihtest.self.expression ht, b, ihbody.self.statement hb, rfl⟩
  case doWhileStatement body test =>
    obtain ⟨ihbody, ihtest, -⟩ := ih
    obtain ⟨b, hb, t, ht, rfl⟩ := h
    exact ⟨b, ihbody.self.statement hb, t, ihtest.self.expression ht, rfl⟩
  case forStatement init test update body =>
    obtain ⟨ihinit, ihtest, ihupdate, ihbody, -⟩ := ih
    obtain ⟨b, hb, start, hs, condition, ht, step, hu, rfl⟩ := h
    exact ⟨b, ihbody.self.statement hb, start, loopStart_norm ihinit hs, condition,
      optionally_norm ht (fun _ => ihtest.self.expression) expression_absent, step,
      optionally_norm hu (fun _ => ihupdate.self.expression) expression_absent, rfl⟩
  case forInStatement left right body =>
    obtain ⟨ihleft, ihright, ihbody, -⟩ := ih
    obtain ⟨l, hl, r, hr, b, hb, rfl⟩ := h
    exact ⟨l, ihleft.self.target hl, r, ihright.self.expression hr, b, ihbody.self.statement hb,
      rfl⟩
  case forOfStatement left right body =>
    obtain ⟨ihleft, ihright, ihbody, -⟩ := ih
    obtain ⟨l, hl, r, hr, b, hb, rfl⟩ := h
    exact ⟨l, ihleft.self.target hl, r, ihright.self.expression hr, b, ihbody.self.statement hb,
      rfl⟩
  case breakStatement label => rw [labelMember_norm hc, h]
  case continueStatement label => rw [labelMember_norm hc, h]
  case tryStatement block handler finalizer =>
    obtain ⟨ihblock, ihhandler, ihfinalizer, -⟩ := ih
    obtain ⟨xs, hxs, caught, hh, final, hf, rfl⟩ := h
    exact ⟨xs, ihblock.self.block hc.1.1 hxs, caught, catchMember_norm ihhandler hh, final,
      optionally_norm (f := finallyClause) hf (fun _ => finallyClause_norm hc.2 ihfinalizer.self)
        finallyClause_absent, rfl⟩
  case throwStatement argument =>
    obtain ⟨ihargument, -⟩ := ih
    obtain ⟨y, hy, rfl⟩ := h
    exact ⟨y, ihargument.self.expression hy, rfl⟩
  case switchStatement discriminant cases =>
    obtain ⟨ihdiscriminant, ihcases⟩ := ih
    obtain ⟨d, hd, xs, hxs, rfl⟩ := h
    exact ⟨d, ihdiscriminant.self.expression hd, xs, switchCases_norm ihcases hxs, rfl⟩

-- ---------------------------------------------------------------------------
-- Expressions
-- ---------------------------------------------------------------------------

theorem expression_norm (hc : n.proper = true) (ih : ∀ c ∈ n.children, c.Keeps)
    (h : expression n = .ok x) : expression n.norm = .ok x := by
  rw [Node.proper, Bool.and_eq_true] at hc
  obtain ⟨hc, hp⟩ := hc
  cases n <;> simp only [expression, bind_ok, pure_ok, refuseAt_ok] at h <;>
    simp only [Node.norm, expression, bind_ok, pure_ok] <;>
    simp only [Node.children, List.forall_mem_cons] at ih <;>
    simp only [Node.complete, Node.plain, Bool.and_eq_true] at hc hp
  case identifier => exact h
  case numericLiteral => exact h
  case bigIntLiteral => exact h
  case stringLiteral => exact h
  case templateLiteral quasis values =>
    rw [List.forall_mem_append] at ih
    obtain ⟨parts, hparts, xs, hxs, rfl⟩ := h
    exact ⟨parts, templateParts_norm hparts, xs,
      expressions_norm (Node.Supposed.all ih.2) hxs, rfl⟩
  case regExpLiteral => exact h
  case booleanLiteral => exact h
  case nullLiteral => exact h
  case thisExpression => exact h
  case arrayExpression values =>
    obtain ⟨xs, hxs, rfl⟩ := h
    exact ⟨xs, elements_norm (Node.Supposed.all ih) hxs, rfl⟩
  case objectExpression properties =>
    obtain ⟨xs, hxs, rfl⟩ := h
    exact ⟨xs, objectFields_norm (Node.Supposed.all ih) hxs, rfl⟩
  case functionExpression id params body =>
    obtain ⟨-, ihbody, ihparams⟩ := ih
    obtain ⟨ps, hps, xs, hxs, rfl⟩ := h
    rw [nameOrEmpty_norm hc.1.1]
    exact ⟨ps, parameters_norm (Node.Supposed.all ihparams) hps, xs,
      functionBody_norm hp ihbody.self hxs, rfl⟩
  case arrowFunctionExpression params body =>
    obtain ⟨ihbody, ihparams⟩ := ih
    obtain ⟨ps, hps, members, hm, rfl⟩ := h
    exact ⟨ps, parameters_norm (Node.Supposed.all ihparams) hps, members,
      arrowBody_norm ihbody.holds ihbody.self hm, rfl⟩
  case callExpression callee arguments =>
    obtain ⟨ihcallee, iharguments⟩ := ih
    obtain ⟨c, hcallee, xs, hxs, rfl⟩ := h
    exact ⟨c, ihcallee.self.expression hcallee, xs,
      expressions_norm (Node.Supposed.all iharguments) hxs, rfl⟩
  case newExpression callee arguments =>
    obtain ⟨ihcallee, iharguments⟩ := ih
    obtain ⟨c, hcallee, xs, hxs, rfl⟩ := h
    exact ⟨c, ihcallee.self.expression hcallee, xs,
      expressions_norm (Node.Supposed.all iharguments) hxs, rfl⟩
  case memberExpression computed object property =>
    obtain ⟨ihobject, ihproperty, -⟩ := ih
    obtain ⟨o, ho, members, hm, rfl⟩ := h
    exact ⟨o, ihobject.self.expression ho, members, memberProperty_norm hp ihproperty.self hm, rfl⟩
  case unaryExpression argument =>
    obtain ⟨ihargument, -⟩ := ih
    obtain ⟨y, hy, rfl⟩ := h
    exact ⟨y, ihargument.self.expression hy, rfl⟩
  case binaryExpression left right =>
    obtain ⟨ihleft, ihright, -⟩ := ih
    obtain ⟨l, hl, r, hr, rfl⟩ := h
    exact ⟨l, ihleft.self.expression hl, r, ihright.self.expression hr, rfl⟩
  case updateExpression argument =>
    obtain ⟨ihargument, -⟩ := ih
    obtain ⟨y, hy, rfl⟩ := h
    exact ⟨y, ihargument.self.expression hy, rfl⟩
  case assignmentExpression left right =>
    obtain ⟨ihleft, ihright, -⟩ := ih
    obtain ⟨l, hl, r, hr, rfl⟩ := h
    exact ⟨l, ihleft.self.expression hl, r, ihright.self.expression hr, rfl⟩
  case conditionalExpression test consequent alternate =>
    obtain ⟨ihtest, ihconsequent, ihalternate, -⟩ := ih
    obtain ⟨t, ht, y, hy, e, he, rfl⟩ := h
    exact ⟨t, ihtest.self.expression ht, y, ihconsequent.self.expression hy, e,
      ihalternate.self.expression he, rfl⟩
  case sequenceExpression values =>
    obtain ⟨xs, hxs, rfl⟩ := h
    exact ⟨xs, expressions_norm (Node.Supposed.all ih) hxs, rfl⟩
  case awaitExpression argument =>
    obtain ⟨ihargument, -⟩ := ih
    obtain ⟨y, hy, rfl⟩ := h
    exact ⟨y, ihargument.self.expression hy, rfl⟩
  case yieldExpression argument =>
    obtain ⟨ihargument, -⟩ := ih
    obtain ⟨members, hm, rfl⟩ := h
    exact ⟨members, optionally_norm hm (fun _ => ihargument.self.expression) expression_absent, rfl⟩
  case spreadElement argument =>
    obtain ⟨ihargument, -⟩ := ih
    obtain ⟨y, hy, rfl⟩ := h
    exact ⟨y, ihargument.self.expression hy, rfl⟩
  case parenthesizedExpression e =>
    obtain ⟨ihe, -⟩ := ih
    exact ihe.self.expression h
  case intrinsicIdentifier => exact h

-- ---------------------------------------------------------------------------
-- Whole scripts
-- ---------------------------------------------------------------------------

theorem Node.Every.kept (h : Node.Every Node.proper n) : n.Kept :=
  Node.Every.induction (fun _ hc ih => {
    statement := statement_norm hc ih
    expression := expression_norm hc ih
    parameter := parameter_norm ih
    declarator := declarator_norm ih
    target := loopTarget_norm ih
    field := objectField_norm hc ih
    block := blockBody_norm ih
    members := classBody_norm ih }) h

/-- The normal form of a script has the form of the script. -/
theorem form_norm {p : Program} (hp : ∀ n ∈ p.body, Node.Every Node.proper n)
    (h : p.form = .ok x) : p.norm.form = .ok x := by
  simp only [Program.form, bind_ok, pure_ok] at h ⊢
  obtain ⟨xs, hxs, rfl⟩ := h
  exact ⟨xs, statements_norm (fun n hn => (hp n hn).kept) hxs, rfl⟩

end Treewire.Script
