import Treewire.Proofs.WellFormed
import Treewire.Proofs.Converted

/-!
# One difference, deep inside

Two scripts that differ at a single node are that node and its replacement in one context. Whether
their forms differ is settled at the node: a context is made of frames, and no frame loses what is
told of the node that it holds. `Tells S n n'` says that the converter gives `n` and `n'` the same
form exactly if `S`, wherever they stand; `Context.tells` carries that from two nodes to all that
is around them.
-/

namespace Treewire.Script

-- ---------------------------------------------------------------------------
-- Two conversions side by side
-- ---------------------------------------------------------------------------

/-- Two conversions that, if both succeed, give the same exactly if `S` holds. -/
def SameIff {α : Type} (S : Prop) (r r' : Converted α) : Prop :=
  ∀ x x', r = .ok x → r' = .ok x' → (x = x' ↔ S)

namespace SameIff

variable {α β : Type} {S : Prop} {r r' : Converted α} {f f' : α → Converted β}

theorem bind (h : SameIff S r r') (hf : ∀ a a', SameIff (a = a') (f a) (f' a')) :
    SameIff S (r >>= f) (r' >>= f') := by
  intro y y' hy hy'
  obtain ⟨a, ha, hb⟩ := bind_ok.mp hy
  obtain ⟨a', ha', hb'⟩ := bind_ok.mp hy'
  exact (hf a a' y y' hb hb').trans (h a a' ha ha')

/-- A step that both have in common. -/
theorem after (hf : ∀ a, SameIff S (f a) (f' a)) : SameIff S (r >>= f) (r >>= f') := by
  intro y y' hy hy'
  obtain ⟨a, ha, hb⟩ := bind_ok.mp hy
  obtain ⟨a', ha', hb'⟩ := bind_ok.mp hy'
  cases ha.symm.trans ha'
  exact hf a y y' hb hb'

theorem pure {x x' : α} (h : x = x' ↔ S) : SameIff S (pure x) (pure x') := by
  intro y y' hy hy'
  cases pure_ok.mp hy
  cases pure_ok.mp hy'
  exact h

/-- The last step, which wraps up what came before it. -/
theorem into {g g' : α → β} (h : SameIff S r r') (hg : ∀ a a', g a = g' a' ↔ a = a') :
    SameIff S (do return g (← r)) (do return g' (← r')) :=
  h.bind fun a a' => .pure (hg a a')

theorem of_eq (h : r = r') : SameIff True r r' := by
  intro y y' hy hy'
  rw [h, hy'] at hy
  exact ⟨fun _ => trivial, fun _ => Except.ok.inj hy.symm⟩

/-- Where one of the two fails there is nothing to compare. -/
theorem of_fails (h : ∀ x, r ≠ .ok x) : SameIff S r r' :=
  fun x _ hx _ => absurd hx (h x)

theorem mapM {g : Node → Converted Form} (h : SameIff S (g n) (g n')) (before after : List Node) :
    SameIff S ((before ++ n :: after).mapM g) ((before ++ n' :: after).mapM g) := by
  induction before with
  | nil =>
    rw [List.nil_append, List.nil_append, List.mapM_cons, List.mapM_cons]
    exact h.bind fun a a' => .after fun _ => .pure (by simp)
  | cons m rest ih =>
    rw [List.cons_append, List.cons_append, List.mapM_cons, List.mapM_cons]
    exact .after fun _ => ih.bind fun _ _ => .pure (by simp)

end SameIff

-- ---------------------------------------------------------------------------
-- What is told of a node
-- ---------------------------------------------------------------------------

/-- What the converter asks of a node before it looks into it. -/
inductive Role where
  | missing
  | block
  | declaration
  | statement
  | expression
  | name
  | spread
  | declarator
  | parameter
  | classBody
  | member
  | field
  | handler
  | switchCase
  | nowhere
  deriving DecidableEq

def Node.role : Node → Role
  | .absent => .missing
  | .blockStatement .. => .block
  | .variableDeclaration .. => .declaration
  | .emptyStatement .. | .functionDeclaration .. | .classDeclaration .. | .returnStatement ..
  | .expressionStatement .. | .ifStatement .. | .whileStatement .. | .doWhileStatement ..
  | .forStatement .. | .forInStatement .. | .forOfStatement .. | .breakStatement ..
  | .continueStatement .. | .tryStatement .. | .throwStatement .. | .switchStatement .. =>
    .statement
  | .variableDeclarator .. => .declarator
  | .classBody .. => .classBody
  | .classProperty .. | .classMethod .. => .member
  | .catchClause .. => .handler
  | .switchCase .. => .switchCase
  | .assignmentPattern .. | .restElement .. => .parameter
  | .identifier .. => .name
  | .objectProperty .. | .objectMethod .. => .field
  | .spreadElement .. => .spread
  | .incomplete .. | .other .. | .privateName .. | .templateElement .. => .nowhere
  | _ => .expression

/-- The members of a declaration, wherever it stands. -/
def declaration : Node → Converted Form.Members
  | node@(.variableDeclaration _ kind list) =>
    declarationMembers node kind fun _ => declarators list
  | _ => throw .malformed

section Outside

/-! A node without a role at a position is not converted there, so that nothing is to be told. -/

variable {S : Prop} {n : Node}

theorem statement_outside (h : [Role.block, .declaration, .statement].contains n.role = false) :
    SameIff S (statement n) r := by
  refine .of_fails fun x => ?_
  fun_cases statement n <;> first | cases h | simp

theorem blockBody_outside (h : [Role.block, .classBody].contains n.role = false) :
    SameIff S (blockBody n) r := by
  refine .of_fails fun x => ?_
  fun_cases blockBody n <;> first | cases h | simp

theorem declaration_outside (h : [Role.declaration].contains n.role = false) :
    SameIff S (declaration n) r := by
  refine .of_fails fun x => ?_
  fun_cases declaration n <;> first | cases h | simp

theorem loopTarget_outside (h : [Role.declaration, .name].contains n.role = false) :
    SameIff S (loopTarget n) r := by
  refine .of_fails fun x => ?_
  fun_cases loopTarget n <;> first | cases h | simp

theorem declarator_outside (h : [Role.declarator].contains n.role = false) :
    SameIff S (declarator n) r := by
  refine .of_fails fun x => ?_
  fun_cases declarator n <;> first | cases h | simp

theorem parameter_outside (h : [Role.name, .parameter].contains n.role = false) :
    SameIff S (parameter n) r := by
  refine .of_fails fun x => ?_
  fun_cases parameter n <;> first | cases h | simp

theorem classBody_outside (h : [Role.block, .classBody].contains n.role = false) :
    SameIff S (classBody n) r := by
  refine .of_fails fun x => ?_
  fun_cases classBody n <;> first | cases h | simp

theorem classMembers_outside (h : [Role.member].contains n.role = false) :
    SameIff S (classMembers (n :: rest)) r := by
  refine .of_fails fun x hx => ?_
  obtain ⟨-, -, hall⟩ := classMembers_ok.mp hx
  have hrole : n.role = .member := by
    have hmember := hall n List.mem_cons_self
    cases n <;> first | rfl | simp [Node.isProperty, Node.isMethod] at hmember
  rw [hrole] at h
  cases h

theorem catchMember_outside (h : [Role.missing, .handler].contains n.role = false) :
    SameIff S (catchMember n) r := by
  refine .of_fails fun x => ?_
  fun_cases catchMember n <;> first | cases h | simp

theorem switchCase_outside (h : [Role.switchCase].contains n.role = false) :
    SameIff S (switchCase n) r := by
  refine .of_fails fun x => ?_
  fun_cases switchCase n <;> first | cases h | simp

theorem objectField_outside (h : [Role.field, .spread].contains n.role = false) :
    SameIff S (objectField n) r := by
  refine .of_fails fun x => ?_
  fun_cases objectField n <;> first | cases h | simp

theorem expression_outside (h : [Role.expression, .name, .spread].contains n.role = false) :
    SameIff S (expression n) r := by
  refine .of_fails fun x => ?_
  fun_cases expression n <;> first | cases h | simp

end Outside

/-- Wherever two nodes of one role stand, the converter makes the same of them exactly if `S`. -/
structure Tells (S : Prop) (n n' : Node) : Prop where
  present : n.isPresent = true := by exact rfl
  role : n.role = n'.role := by exact rfl
  asStatement : SameIff S (statement n) (statement n') := by exact statement_outside rfl
  asBlock : SameIff S (blockBody n) (blockBody n') := by exact blockBody_outside rfl
  asDeclaration : SameIff S (declaration n) (declaration n') := by exact declaration_outside rfl
  asTarget : SameIff S (loopTarget n) (loopTarget n') := by exact loopTarget_outside rfl
  asDeclarator : SameIff S (declarator n) (declarator n') := by exact declarator_outside rfl
  asParameter : SameIff S (parameter n) (parameter n') := by exact parameter_outside rfl
  asClassBody : SameIff S (classBody n) (classBody n') := by exact classBody_outside rfl
  asMember rest : SameIff S (classMembers (n :: rest)) (classMembers (n' :: rest)) := by
    exact fun _ => classMembers_outside rfl
  asHandler : SameIff S (catchMember n) (catchMember n') := by exact catchMember_outside rfl
  asCase : SameIff S (switchCase n) (switchCase n') := by exact switchCase_outside rfl
  asField : SameIff S (objectField n) (objectField n') := by exact objectField_outside rfl
  asExpression : SameIff S (expression n) (expression n') := by exact expression_outside rfl

section Derived

variable {S : Prop} {n n' : Node}

theorem isPresent_iff : n.isPresent = true ↔ n.role ≠ .missing := by
  cases n <;> simp [Node.isPresent, Node.role]

theorem Tells.present' (h : Tells S n n') : n'.isPresent = true := by
  rw [isPresent_iff, ← h.role, ← isPresent_iff]
  exact h.present

theorem optionally_of_present (h : n.isPresent = true) {c : Unit → Converted Form} :
    optionally name n c = do return [(name, ← c ())] := by
  cases n <;> first | rfl | cases h

theorem SameIff.optionally {c c' : Unit → Converted Form} (hc : SameIff S (c ()) (c' ()))
    (h : Tells S n n') :
    SameIff S (optionally name n c) (optionally name n' c') := by
  rw [optionally_of_present h.present, optionally_of_present h.present']
  exact hc.into (by simp)

theorem functionBody_block (h : n.role = .block) : functionBody n block single = block () := by
  cases n <;> first | rfl | cases h

theorem functionBody_single (h : n.role ≠ .block) :
    functionBody n block single = do return [← single ()] := by
  cases n <;> first | rfl | exact absurd rfl h

theorem Tells.asFunctionBody (h : Tells S n n') :
    SameIff S (functionBody n (fun _ => blockBody n) fun _ => statement n)
      (functionBody n' (fun _ => blockBody n') fun _ => statement n') := by
  by_cases hb : n.role = .block
  · rw [functionBody_block hb, functionBody_block (h.role ▸ hb)]
    exact h.asBlock
  · rw [functionBody_single hb, functionBody_single (h.role ▸ hb)]
    exact h.asStatement.into (by simp)

theorem arrowBody_block (h : n.role = .block) :
    arrowBody n block single =
      do return [("block", .wrap "blockStatement" [("body", .list (← block ()))])] := by
  cases n <;> first | rfl | cases h

theorem arrowBody_single (h : n.role ≠ .block) (ho : arrowBody n block single = .ok x) :
    ∃ e, single () = .ok e ∧ [("expression", e)] = x := by
  cases n <;> simp only [arrowBody, bind_ok, pure_ok] at ho
  case blockStatement => exact absurd rfl h
  case incomplete => split at ho <;> simp at ho
  all_goals exact ho

theorem Tells.asArrowBody (h : Tells S n n') :
    SameIff S (arrowBody n (fun _ => blockBody n) fun _ => expression n)
      (arrowBody n' (fun _ => blockBody n') fun _ => expression n') := by
  by_cases hb : n.role = .block
  · rw [arrowBody_block hb, arrowBody_block (h.role ▸ hb)]
    exact h.asBlock.into (by simp [Form.wrap])
  · intro x x' hx hx'
    obtain ⟨e, he, rfl⟩ := arrowBody_single hb hx
    obtain ⟨e', he', rfl⟩ := arrowBody_single (h.role ▸ hb) hx'
    simpa using h.asExpression e e' he he'

theorem loopStart_declaration (h : n.role = .declaration) :
    loopStart n (fun _ => declarations n) single =
      do return [("declaration", .record (← declaration n))] := by
  cases n <;> first | rfl | cases h

theorem loopStart_single (hp : n.isPresent = true) (hd : n.role ≠ .declaration) :
    loopStart n declare single = do return [("expression", ← single ())] := by
  cases n <;> first | rfl | exact absurd rfl hd | cases hp

theorem Tells.asLoopStart (h : Tells S n n') :
    SameIff S (loopStart n (fun _ => declarations n) fun _ => expression n)
      (loopStart n' (fun _ => declarations n') fun _ => expression n') := by
  by_cases hd : n.role = .declaration
  · rw [loopStart_declaration hd, loopStart_declaration (h.role ▸ hd)]
    exact h.asDeclaration.into (by simp)
  · rw [loopStart_single h.present hd, loopStart_single h.present' (h.role ▸ hd)]
    exact h.asExpression.into (by simp)

theorem element_of_present (h : n.isPresent = true) : element n = expression n := by
  cases n <;> first | rfl | cases h

variable (before after : List Node)

theorem Tells.asStatements (h : Tells S n n') :
    SameIff S (statements (before ++ n :: after)) (statements (before ++ n' :: after)) := by
  rw [statements_eq_mapM, statements_eq_mapM]
  exact h.asStatement.mapM before after

theorem Tells.asExpressions (h : Tells S n n') :
    SameIff S (expressions (before ++ n :: after)) (expressions (before ++ n' :: after)) := by
  rw [expressions_eq_mapM, expressions_eq_mapM]
  exact h.asExpression.mapM before after

theorem Tells.asElements (h : Tells S n n') :
    SameIff S (elements (before ++ n :: after)) (elements (before ++ n' :: after)) := by
  rw [elements_eq_mapM, elements_eq_mapM]
  refine SameIff.mapM ?_ before after
  rw [element_of_present h.present, element_of_present h.present']
  exact h.asExpression

theorem Tells.asParameters (h : Tells S n n') :
    SameIff S (parameters (before ++ n :: after)) (parameters (before ++ n' :: after)) := by
  rw [parameters_eq_mapM, parameters_eq_mapM]
  exact h.asParameter.mapM before after

theorem Tells.asDeclarators (h : Tells S n n') :
    SameIff S (declarators (before ++ n :: after)) (declarators (before ++ n' :: after)) := by
  rw [declarators_eq_mapM, declarators_eq_mapM]
  exact h.asDeclarator.mapM before after

theorem Tells.asObjectFields (h : Tells S n n') :
    SameIff S (objectFields (before ++ n :: after)) (objectFields (before ++ n' :: after)) := by
  rw [objectFields_eq_mapM, objectFields_eq_mapM]
  exact h.asField.mapM before after

theorem Tells.asSwitchCases (h : Tells S n n') :
    SameIff S (switchCases (before ++ n :: after)) (switchCases (before ++ n' :: after)) := by
  rw [switchCases_eq_mapM, switchCases_eq_mapM]
  exact h.asCase.mapM before after

theorem Tells.asClassMembers (h : Tells S n n') :
    SameIff S (classMembers (before ++ n :: after)) (classMembers (before ++ n' :: after)) := by
  induction before with
  | nil => exact h.asMember after
  | cons m rest ih =>
    rw [List.cons_append, List.cons_append]
    by_cases hm : [Role.member].contains m.role = false
    · exact classMembers_outside hm
    · cases m <;> first | exact absurd rfl hm | skip
      · simp only [Script.classMembers]
        exact .after fun _ => .after fun _ => ih.bind fun _ _ => .pure (by simp [Prod.ext_iff])
      · simp only [Script.classMembers]
        split
        · exact .of_fails (by simp)
        · exact .after fun _ => .after fun _ => .after fun _ =>
            ih.bind fun _ _ => .pure (by simp [Prod.ext_iff])

end Derived

-- ---------------------------------------------------------------------------
-- Frames
-- ---------------------------------------------------------------------------

@[simp] theorem Form.wrap_inj {members members' : Form.Members} :
    Form.wrap name members = Form.wrap name members' ↔ members = members' := by
  simp [Form.wrap]

/-- A statement around a node. -/
inductive StatementFrame : (Node → Node) → Prop
  | functionParameter : StatementFrame fun n =>
      .functionDeclaration place flags name (before ++ n :: after) body
  | functionBody : StatementFrame fun n => .functionDeclaration place flags name params n
  | classParent : StatementFrame fun n => .classDeclaration place name n body
  | classBody : StatementFrame fun n => .classDeclaration place name superClass n
  | returned : StatementFrame fun n => .returnStatement place n
  | expression : StatementFrame fun n => .expressionStatement place n
  | ifTest : StatementFrame fun n => .ifStatement place n consequent alternate
  | ifConsequent : StatementFrame fun n => .ifStatement place test n alternate
  | ifAlternate : StatementFrame fun n => .ifStatement place test consequent n
  | whileTest : StatementFrame fun n => .whileStatement place n body
  | whileBody : StatementFrame fun n => .whileStatement place test n
  | doWhileBody : StatementFrame fun n => .doWhileStatement place n test
  | doWhileTest : StatementFrame fun n => .doWhileStatement place body n
  | forStart : StatementFrame fun n => .forStatement place n test update body
  | forTest : StatementFrame fun n => .forStatement place init n update body
  | forUpdate : StatementFrame fun n => .forStatement place init test n body
  | forBody : StatementFrame fun n => .forStatement place init test update n
  | forInTarget : StatementFrame fun n => .forInStatement place n right body
  | forInRange : StatementFrame fun n => .forInStatement place left n body
  | forInBody : StatementFrame fun n => .forInStatement place left right n
  | forOfTarget : StatementFrame fun n => .forOfStatement place awaits n right body
  | forOfRange : StatementFrame fun n => .forOfStatement place awaits left n body
  | forOfBody : StatementFrame fun n => .forOfStatement place awaits left right n
  | tried : StatementFrame fun n => .tryStatement place n handler finalizer
  | handler : StatementFrame fun n => .tryStatement place block n finalizer
  | finalizer : StatementFrame fun n => .tryStatement place block handler n
  | thrown : StatementFrame fun n => .throwStatement place n
  | discriminant : StatementFrame fun n => .switchStatement place n cases
  | switchCase : StatementFrame fun n => .switchStatement place discriminant (before ++ n :: after)

/-- An expression around a node. -/
inductive ExpressionFrame : (Node → Node) → Prop
  | substitution : ExpressionFrame fun n => .templateLiteral place quasis (before ++ n :: after)
  | element : ExpressionFrame fun n => .arrayExpression place (before ++ n :: after)
  | field : ExpressionFrame fun n => .objectExpression place (before ++ n :: after)
  | functionParameter : ExpressionFrame fun n =>
      .functionExpression place flags name (before ++ n :: after) body
  | functionBody : ExpressionFrame fun n => .functionExpression place flags name params n
  | arrowParameter : ExpressionFrame fun n =>
      .arrowFunctionExpression place flags (before ++ n :: after) body
  | arrowBody : ExpressionFrame fun n => .arrowFunctionExpression place flags params n
  | callee : ExpressionFrame fun n => .callExpression place chained isOptional n arguments
  | argument : ExpressionFrame fun n =>
      .callExpression place chained isOptional callee (before ++ n :: after)
  | newCallee : ExpressionFrame fun n => .newExpression place n arguments
  | newArgument : ExpressionFrame fun n => .newExpression place callee (before ++ n :: after)
  | object : ExpressionFrame fun n => .memberExpression place chained isOptional computed n property
  | property : ExpressionFrame fun n => .memberExpression place chained isOptional true object n
  | operand : ExpressionFrame fun n => .unaryExpression place operator n
  | leftOperand : ExpressionFrame fun n => .binaryExpression place logical operator n right
  | rightOperand : ExpressionFrame fun n => .binaryExpression place logical operator left n
  | updated : ExpressionFrame fun n => .updateExpression place operator first n
  | assigned : ExpressionFrame fun n => .assignmentExpression place operator n right
  | assignedValue : ExpressionFrame fun n => .assignmentExpression place operator left n
  | condition : ExpressionFrame fun n => .conditionalExpression place n consequent alternate
  | consequent : ExpressionFrame fun n => .conditionalExpression place test n alternate
  | alternate : ExpressionFrame fun n => .conditionalExpression place test consequent n
  | sequence : ExpressionFrame fun n => .sequenceExpression place (before ++ n :: after)
  | awaited : ExpressionFrame fun n => .awaitExpression place n
  | yielded : ExpressionFrame fun n => .yieldExpression place delegate n
  | parenthesized : ExpressionFrame fun n => .parenthesizedExpression place n

/-- What is a part of statements and expressions too, or nothing else, around a node. -/
inductive PartFrame : (Node → Node) → Prop
  | block : PartFrame fun n => .blockStatement place prologue (before ++ n :: after)
  | declaration : PartFrame fun n => .variableDeclaration place kind (before ++ n :: after)
  | initial : PartFrame fun n => .variableDeclarator place name n
  | member : PartFrame fun n => .classBody place (before ++ n :: after)
  | propertyKey : PartFrame fun n => .classProperty place isStatic true n value
  | propertyValue : PartFrame fun n => .classProperty place isStatic computed key n
  | methodParameter : PartFrame fun n =>
      .classMethod place isStatic computed kind flags key (before ++ n :: after) body
  | methodBody : PartFrame fun n => .classMethod place isStatic computed kind flags key params n
  | handlerParameter : PartFrame fun n => .catchClause place n body
  | handlerBody : PartFrame fun n => .catchClause place param n
  | caseTest : PartFrame fun n => .switchCase place n params
  | caseBody : PartFrame fun n => .switchCase place test (before ++ n :: after)
  | defaultValue : PartFrame fun n => .assignmentPattern place left n
  | fieldKey : PartFrame fun n => .objectProperty place true shorthand n value
  | fieldValue : PartFrame fun n => .objectProperty place computed shorthand key n
  | objectMethodKey : PartFrame fun n => .objectMethod place true kind flags n params body
  | objectMethodParameter : PartFrame fun n =>
      .objectMethod place computed kind flags key (before ++ n :: after) body
  | objectMethodBody : PartFrame fun n => .objectMethod place computed kind flags key params n
  | spread : PartFrame fun n => .spreadElement place n

/-- A node around a place where a node of any kind may stand. Names (of functions and variables,
labels, keys that are not computed) stand at no such place. -/
inductive Frame : (Node → Node) → Prop
  | statement (h : StatementFrame f) : Frame f
  | expression (h : ExpressionFrame f) : Frame f
  | part (h : PartFrame f) : Frame f

section Frames

variable {S : Prop} {n n' : Node}

theorem SameIff.inStatement (hf : StatementFrame f) (h : Tells S n n') :
    SameIff S (statement (f n)) (statement (f n')) := by
  cases hf with
  | functionParameter =>
    rw [statement, statement]
    exact .after fun _ => (h.asParameters _ _).bind fun _ _ => .after fun _ => .pure (by simp)
  | functionBody =>
    rw [statement, statement]
    exact .after fun _ => .after fun _ => h.asFunctionBody.into (by simp)
  | classParent =>
    rw [statement, statement]
    exact (h.asExpression.optionally h).bind fun _ _ => .after fun _ => .pure (by simp)
  | classBody =>
    rw [statement, statement]
    exact .after fun _ => h.asClassBody.into (by simp [Prod.ext_iff])
  | returned =>
    rw [statement, statement]
    exact (h.asExpression.optionally h).into (by simp)
  | expression =>
    rw [statement, statement]
    exact h.asExpression.into (by simp)
  | ifTest =>
    rw [statement, statement]
    exact h.asExpression.bind fun _ _ => .after fun _ => .after fun _ => .pure (by simp)
  | ifConsequent =>
    rw [statement, statement]
    exact .after fun _ => h.asStatement.bind fun _ _ => .after fun _ => .pure (by simp)
  | ifAlternate =>
    rw [statement, statement]
    exact .after fun _ => .after fun _ => (h.asStatement.optionally h).into (by simp)
  | whileTest =>
    rw [statement, statement]
    exact h.asExpression.bind fun _ _ => .after fun _ => .pure (by simp)
  | whileBody =>
    rw [statement, statement]
    exact .after fun _ => h.asStatement.into (by simp)
  | doWhileBody =>
    rw [statement, statement]
    exact h.asStatement.bind fun _ _ => .after fun _ => .pure (by simp)
  | doWhileTest =>
    rw [statement, statement]
    exact .after fun _ => h.asExpression.into (by simp)
  | forStart =>
    rw [statement, statement]
    exact .after fun _ => h.asLoopStart.bind fun _ _ => .after fun _ => .after fun _ =>
      .pure (by simp)
  | forTest =>
    rw [statement, statement]
    exact .after fun _ => .after fun _ => (h.asExpression.optionally h).bind fun _ _ =>
      .after fun _ => .pure (by simp)
  | forUpdate =>
    rw [statement, statement]
    exact .after fun _ => .after fun _ => .after fun _ =>
      (h.asExpression.optionally h).into (by simp)
  | forBody =>
    rw [statement, statement]
    exact h.asStatement.bind fun _ _ => .after fun _ => .after fun _ => .after fun _ =>
      .pure (by simp)
  | forInTarget | forOfTarget =>
    rw [statement, statement]
    exact h.asTarget.bind fun _ _ => .after fun _ => .after fun _ => .pure (by simp)
  | forInRange | forOfRange =>
    rw [statement, statement]
    exact .after fun _ => h.asExpression.bind fun _ _ => .after fun _ => .pure (by simp)
  | forInBody | forOfBody =>
    rw [statement, statement]
    exact .after fun _ => .after fun _ => h.asStatement.into (by simp)
  | tried =>
    rw [statement, statement]
    exact h.asBlock.bind fun _ _ => .after fun _ => .after fun _ => .pure (by simp)
  | handler =>
    rw [statement, statement]
    exact .after fun _ => h.asHandler.bind fun _ _ => .after fun _ => .pure (by simp)
  | finalizer =>
    rw [statement, statement]
    exact .after fun _ => .after fun _ =>
      ((h.asBlock.into (by simp)).optionally h).into (by simp)
  | thrown =>
    rw [statement, statement]
    exact h.asExpression.into (by simp)
  | discriminant =>
    rw [statement, statement]
    exact h.asExpression.bind fun _ _ => .after fun _ => .pure (by simp)
  | switchCase =>
    rw [statement, statement]
    exact .after fun _ => (h.asSwitchCases _ _).into (by simp)

theorem SameIff.inExpression (hf : ExpressionFrame f) (h : Tells S n n') :
    SameIff S (expression (f n)) (expression (f n')) := by
  cases hf with
  | substitution =>
    rw [expression, expression]
    exact .after fun _ => (h.asExpressions _ _).into (by simp)
  | element =>
    rw [expression, expression]
    exact (h.asElements _ _).into (by simp)
  | field =>
    rw [expression, expression]
    exact (h.asObjectFields _ _).into (by simp)
  | functionParameter =>
    rw [expression, expression]
    exact (h.asParameters _ _).bind fun _ _ => .after fun _ => .pure (by simp)
  | functionBody =>
    rw [expression, expression]
    exact .after fun _ => h.asFunctionBody.into (by simp)
  | arrowParameter =>
    rw [expression, expression]
    exact (h.asParameters _ _).bind fun _ _ => .after fun _ => .pure (by simp)
  | arrowBody =>
    rw [expression, expression]
    exact .after fun _ => h.asArrowBody.into (by simp)
  | callee =>
    rw [expression, expression]
    exact h.asExpression.bind fun _ _ => .after fun _ => .pure (by simp)
  | argument =>
    rw [expression, expression]
    exact .after fun _ => (h.asExpressions _ _).into (by simp)
  | newCallee =>
    rw [expression, expression]
    exact h.asExpression.bind fun _ _ => .after fun _ => .pure (by simp)
  | newArgument =>
    rw [expression, expression]
    exact .after fun _ => (h.asExpressions _ _).into (by simp)
  | object =>
    rw [expression, expression]
    exact h.asExpression.bind fun _ _ => .after fun _ => .pure (by simp)
  | property =>
    rw [expression, expression]
    exact .after fun _ => (h.asExpression.into (by simp)).into (by simp)
  | operand | updated | awaited =>
    rw [expression, expression]
    exact h.asExpression.into (by simp)
  | leftOperand | assigned =>
    rw [expression, expression]
    exact h.asExpression.bind fun _ _ => .after fun _ => .pure (by simp)
  | rightOperand | assignedValue =>
    rw [expression, expression]
    exact .after fun _ => h.asExpression.into (by simp)
  | condition =>
    rw [expression, expression]
    exact h.asExpression.bind fun _ _ => .after fun _ => .after fun _ => .pure (by simp)
  | consequent =>
    rw [expression, expression]
    exact .after fun _ => h.asExpression.bind fun _ _ => .after fun _ => .pure (by simp)
  | alternate =>
    rw [expression, expression]
    exact .after fun _ => .after fun _ => h.asExpression.into (by simp)
  | sequence =>
    rw [expression, expression]
    exact (h.asExpressions _ _).into (by simp)
  | yielded =>
    rw [expression, expression]
    exact (h.asExpression.optionally h).into (by simp)
  | parenthesized =>
    rw [expression, expression]
    exact h.asExpression

theorem Tells.inPart (hf : PartFrame f) (h : Tells S n n') : Tells S (f n) (f n') := by
  cases hf with
  | @block _ _ before after =>
    have body := h.asStatements before after
    exact {
      asStatement := by
        rw [statement, statement]
        exact body.into (by simp)
      asBlock := body
      asClassBody := h.asClassMembers before after }
  | @declaration place kind before after =>
    have declared : SameIff S
        (declaration (.variableDeclaration place kind (before ++ n :: after)))
        (declaration (.variableDeclaration place kind (before ++ n' :: after))) := by
      simp only [declaration, declarationMembers]
      split
      · exact .of_fails (by simp)
      · exact (h.asDeclarators before after).into (by simp)
    have target : SameIff S
        (loopTarget (.variableDeclaration place kind (before ++ n :: after)))
        (loopTarget (.variableDeclaration place kind (before ++ n' :: after))) := by
      rcases before with _ | ⟨m, _ | ⟨m', rest⟩⟩
      · cases after with
        | nil => exact h.asDeclarator
        | cons m rest => exact .of_fails (by simp [loopTarget])
      · exact .of_fails (by simp [loopTarget])
      · exact .of_fails (by simp [loopTarget])
    exact {
      asStatement := declared.into (by simp)
      asDeclaration := declared
      asTarget := target }
  | @initial _ name =>
    refine { asDeclarator := ?_ }
    cases name
    case identifier =>
      rw [declarator, declarator]
      exact (h.asExpression.optionally h).into (by simp)
    all_goals exact .of_fails (by simp [declarator])
  | member =>
    exact {
      asBlock := h.asStatements _ _
      asClassBody := h.asClassMembers _ _ }
  | propertyKey =>
    refine { asMember := fun _ => ?_ }
    rw [classMembers, classMembers]
    exact (h.asExpression.into (by simp)).bind fun _ _ => .after fun _ => .after fun _ =>
      .pure (by simp)
  | propertyValue =>
    refine { asMember := fun _ => ?_ }
    rw [classMembers, classMembers]
    exact .after fun _ => (h.asExpression.optionally h).bind fun _ _ => .after fun _ =>
      .pure (by simp)
  | methodParameter =>
    refine { asMember := fun _ => ?_ }
    rw [classMembers, classMembers]
    split
    · exact .of_fails (by simp)
    · exact .after fun _ => (h.asParameters _ _).bind fun _ _ => .after fun _ => .after fun _ =>
        .pure (by simp)
  | methodBody =>
    refine { asMember := fun _ => ?_ }
    rw [classMembers, classMembers]
    split
    · exact .of_fails (by simp)
    · exact .after fun _ => .after fun _ => h.asFunctionBody.bind fun _ _ => .after fun _ =>
        .pure (by simp)
  | handlerParameter =>
    refine { asHandler := ?_ }
    rw [catchMember, catchMember]
    exact .after fun _ => (h.asParameter.optionally h).into (by simp)
  | handlerBody =>
    refine { asHandler := ?_ }
    rw [catchMember, catchMember]
    exact h.asBlock.bind fun _ _ => .after fun _ => .pure (by simp)
  | caseTest =>
    exact { asCase := .after fun _ => (h.asExpression.optionally h).into (by simp) }
  | caseBody =>
    exact { asCase := (h.asStatements _ _).bind fun _ _ => .after fun _ => .pure (by simp) }
  | @defaultValue _ left =>
    refine { asParameter := ?_ }
    cases left
    case identifier =>
      rw [parameter, parameter]
      exact h.asExpression.into (by simp)
    all_goals exact .of_fails (by simp [parameter])
  | fieldKey =>
    refine { asField := ?_ }
    rw [objectField, objectField]
    exact .after fun _ => (h.asExpression.into (by simp)).into (by simp)
  | fieldValue =>
    refine { asField := ?_ }
    rw [objectField, objectField]
    exact h.asExpression.bind fun _ _ => .after fun _ => .pure (by simp)
  | objectMethodKey =>
    refine { asField := ?_ }
    simp only [objectField, propertyKey, bind_assoc, pure_bind]
    exact h.asExpression.bind fun _ _ => .after fun _ => .after fun _ =>
      .pure (by simp [nameOnly])
  | objectMethodParameter =>
    refine { asField := ?_ }
    rw [objectField, objectField]
    exact .after fun _ => (h.asParameters _ _).bind fun _ _ => .after fun _ => .pure (by simp)
  | objectMethodBody =>
    refine { asField := ?_ }
    rw [objectField, objectField]
    exact .after fun _ => .after fun _ => h.asFunctionBody.into (by simp)
  | spread =>
    exact {
      asField := by
        rw [objectField, objectField]
        exact h.asExpression.into (by simp)
      asExpression := by
        rw [expression, expression]
        exact h.asExpression.into (by simp) }

theorem Tells.inFrame (hf : Frame f) (h : Tells S n n') : Tells S (f n) (f n') := by
  cases hf with
  | statement hf =>
    have inside := SameIff.inStatement hf h
    cases hf <;> exact { asStatement := inside }
  | expression hf =>
    have inside := SameIff.inExpression hf h
    cases hf <;> exact { asExpression := inside }
  | part hf => exact h.inPart hf

end Frames

/-- Nodes around nodes around a place. -/
inductive Context : (Node → Node) → Prop
  | hole : Context fun n => n
  | inside (hf : Frame f) (hc : Context c) : Context fun n => f (c n)

theorem Tells.inContext {n n' : Node} (hc : Context c) (h : Tells S n n') : Tells S (c n) (c n') := by
  induction hc with
  | hole => exact h
  | inside hf _ ih => exact ih.inFrame hf

/-- Two scripts that are the same but for one node, at any depth. -/
inductive Program.Differ (R : Node → Node → Prop) : Program → Program → Prop
  | at (hc : Context c) (h : R n n') :
      Differ R ⟨prologue, before ++ c n :: after⟩ ⟨prologue, before ++ c n' :: after⟩

theorem Program.Differ.tells {R : Node → Node → Prop} (hR : ∀ n n', R n n' → Tells S n n')
    (h : Program.Differ R p q) : SameIff S p.form q.form := by
  cases h with
  | «at» hc h => exact (((hR _ _ h).inContext hc).asStatements _ _).into (by simp)

end Treewire.Script
