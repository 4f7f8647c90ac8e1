import Treewire.Proofs.Normal

/-!
# Recovering scripts from forms

A form says everything that the normal form of its script says. `recover` reads the tree off the
form again; it is stated for each position that conversion and recovery together give the normal
form of a node. `form_eq_iff_norm_eq` follows: two scripts have one form exactly if they have one
normal form, so that conversion loses what normal forms leave out, and nothing else.
-/

namespace Treewire.Script

-- ---------------------------------------------------------------------------
-- Plain members
-- ---------------------------------------------------------------------------

namespace Form

def asText : Form → Text
  | .text t => t
  | _ => []

def asBool : Form → Bool
  | .bool b => b
  | _ => false

def asNumber? : Form → Option Binary64
  | .number x => some x
  | _ => none

@[simp] theorem asText_text : asText (.text t) = t := rfl

@[simp] theorem asBool_bool : asBool (.bool b) = b := rfl

@[simp] theorem asNumber?_number : asNumber? (.number x) = some x := rfl

/-- The texts of a list of texts. -/
def asTexts : Form → List Text
  | .list items => items.map asText
  | _ => []

end Form

-- ---------------------------------------------------------------------------
-- Nodes from their parts
-- ---------------------------------------------------------------------------

/-- What a form was converted from. -/
inductive Origin
  | statement
  | expression
  | parameter
  | declarator
  | loopHead
  | declaration
  | field
  | property
  | method
  | switchCase
  | catchClause
  | block

/-- The flags of a function from their name. -/
def FunctionFlags.ofText (name : Text) : FunctionFlags :=
  match name.toString? with
  | some "ASYNC_GENERATOR" => ⟨true, true⟩
  | some "ASYNC" => ⟨true, false⟩
  | some "GENERATOR" => ⟨false, true⟩
  | _ => ⟨false, false⟩

@[simp] theorem FunctionFlags.ofText_form (flags : FunctionFlags) :
    ofText flags.form.asText = flags := by
  obtain ⟨async, generator⟩ := flags
  cases async <;> cases generator <;>
    simp [ofText, form, Form.choice, Text.toString?_ofString]

/-- A record of a form, with the nodes that were recovered from its members. -/
structure Clues where
  members : Form.Members
  node : Origin → String → Node
  nodes : Origin → String → List Node

namespace Clues

variable (p : Clues)

/-- What a member says, or what is said without it. -/
def read {α : Type} (f : Form → α) (missing : α) (name : String) : α :=
  match p.members.lookup name with
  | some x => f x
  | none => missing

@[simp] def has (name : String) : Bool := p.read (fun _ => true) false name

@[simp] def text (name : String) : Text := p.read Form.asText [] name

@[simp] def flag (name : String) : Bool := p.read Form.asBool false name

@[simp] def identifier : Node := .identifier none (p.text "name")

/-- The name of a function or class; an empty one stands for none. -/
def ownName : Node := if p.text "name" = [] then .absent else p.identifier

def label : Node := if p.has "label" then .identifier none (p.text "label") else .absent

@[simp] def flags : FunctionFlags := FunctionFlags.ofText (p.text "type")

/-- The kind of a declaration as it is written. -/
def kind : Text :=
  match (p.text "kind").toString? with
  | some "VAR" => Text.ofString "var"
  | some "LET" => Text.ofString "let"
  | some "CONST" => Text.ofString "const"
  | _ => []

def block : Node := .blockStatement none [] (p.nodes .statement "body")

/-- A key, which is computed if there is an expression for it. -/
def key : Node :=
  if p.has "expression" then p.node .expression "expression"
  else match p.read Form.asNumber? none "index" with
    | some x => .numericLiteral none x
    | none => .named (p.text "name")

def declarator : Node := .variableDeclarator none p.identifier (p.node .expression "value")

def declaration : Node := .variableDeclaration none p.kind (p.nodes .declarator "declarations")

def parameter : Node :=
  if p.has "rest" then .restElement none p.identifier
  else if p.has "defaultValue" then
    .assignmentPattern none p.identifier (p.node .expression "defaultValue")
  else p.identifier

def classBody : Node :=
  .classBody none (p.nodes .property "properties" ++ p.nodes .method "methods")

def statement : String → Node
  | "emptyStatement" => .emptyStatement none
  | "blockStatement" => p.block
  | "variableDeclaration" => p.declaration
  | "functionDeclaration" =>
    .functionDeclaration none p.flags p.identifier (p.nodes .parameter "parameters") p.block
  | "classDeclaration" =>
    .classDeclaration none p.ownName (p.node .expression "superClass") p.classBody
  | "returnStatement" => .returnStatement none (p.node .expression "argument")
  | "expressionStatement" => .expressionStatement none (p.node .expression "expression")
  | "ifStatement" =>
    .ifStatement none (p.node .expression "test") (p.node .statement "ifBody")
      (p.node .statement "elseBody")
  | "whileLoop" => .whileStatement none (p.node .expression "test") (p.node .statement "body")
  | "doWhileLoop" => .doWhileStatement none (p.node .statement "body") (p.node .expression "test")
  | "forLoop" =>
    .forStatement none
      (if p.has "declaration" then p.node .declaration "declaration"
        else p.node .expression "expression")
      (p.node .expression "condition") (p.node .expression "afterthought")
      (p.node .statement "body")
  | "forInLoop" =>
    .forInStatement none (p.node .loopHead "left") (p.node .expression "right")
      (p.node .statement "body")
  | "forOfLoop" =>
    .forOfStatement none false (p.node .loopHead "left") (p.node .expression "right")
      (p.node .statement "body")
  | "breakStatement" => .breakStatement none p.label
  | "continueStatement" => .continueStatement none p.label
  | "tryStatement" =>
    .tryStatement none p.block (p.node .catchClause "catchClause") (p.node .block "finallyClause")
  | "throwStatement" => .throwStatement none (p.node .expression "argument")
  | "switchStatement" =>
    .switchStatement none (p.node .expression "discriminant") (p.nodes .switchCase "cases")
  | _ => .absent

def expression : String → Node
  | "identifier" => p.identifier
  | "numberLiteral" => .numericLiteral none ((p.read Form.asNumber? none "value").getD default)
  | "bigintLiteral" => .bigIntLiteral none (p.text "value")
  | "stringLiteral" => .stringLiteral none (p.text "value")
  | "templateLiteral" =>
    .templateLiteral none
      ((p.read Form.asTexts [] "parts").map fun raw => .templateElement none raw none)
      (p.nodes .expression "expressions")
  | "regexpLiteral" => .regExpLiteral none (p.text "pattern") (p.text "flags")
  | "booleanLiteral" => .booleanLiteral none (p.flag "value")
  | "nullLiteral" => .nullLiteral none
  | "thisExpression" => .thisExpression none
  | "arrayExpression" => .arrayExpression none (p.nodes .expression "elements")
  | "objectExpression" => .objectExpression none (p.nodes .field "fields")
  | "functionExpression" =>
    .functionExpression none p.flags p.ownName (p.nodes .parameter "parameters") p.block
  | "arrowFunctionExpression" =>
    .arrowFunctionExpression none p.flags (p.nodes .parameter "parameters")
      (if p.has "block" then p.node .statement "block" else p.node .expression "expression")
  | "callExpression" =>
    .callExpression none false (p.flag "isOptional") (p.node .expression "callee")
      (p.nodes .expression "arguments")
  | "newExpression" =>
    .newExpression none (p.node .expression "callee") (p.nodes .expression "arguments")
  | "memberExpression" =>
    .memberExpression none false (p.flag "isOptional") (p.has "expression")
      (p.node .expression "object")
      (if p.has "expression" then p.node .expression "expression" else p.identifier)
  | "unaryExpression" => .unaryExpression none (p.text "operator") (p.node .expression "argument")
  | "binaryExpression" =>
    .binaryExpression none false (p.text "operator") (p.node .expression "lhs")
      (p.node .expression "rhs")
  | "updateExpression" =>
    .updateExpression none (p.text "operator") (p.flag "isPrefix") (p.node .expression "argument")
  | "assignmentExpression" =>
    .assignmentExpression none (p.text "operator") (p.node .expression "lhs")
      (p.node .expression "rhs")
  | "conditionalExpression" =>
    .conditionalExpression none (p.node .expression "test") (p.node .expression "consequent")
      (p.node .expression "alternate")
  | "sequenceExpression" => .sequenceExpression none (p.nodes .expression "expressions")
  | "awaitExpression" => .awaitExpression none (p.node .expression "argument")
  | "yieldExpression" =>
    .yieldExpression none (p.flag "delegate") (p.node .expression "argument")
  | "spreadElement" => .spreadElement none (p.node .expression "argument")
  | "v8IntrinsicIdentifier" => .intrinsicIdentifier none (p.text "name")
  | _ => .absent

def field : String → Node
  | "property" => .objectProperty none (p.has "expression") false p.key (p.node .expression "value")
  | "method" =>
    .objectMethod none (p.has "expression") (p.text "kind") p.flags p.key
      (p.nodes .parameter "parameters") p.block
  | _ => .absent

/-- What is told by the members alone, without a name for all of them. -/
def unnamed : Origin → Node
  | .parameter => p.parameter
  | .declarator => p.declarator
  | .loopHead => (Node.variableDeclaration none [] [p.declarator]).head
  | .declaration => p.declaration
  | .property =>
    .classProperty none (p.flag "isStatic") (p.has "expression") p.key (p.node .expression "value")
  | .method =>
    .classMethod none (p.flag "isStatic") false (p.text "kind") ⟨false, false⟩
      (.named (p.text "name")) (p.nodes .parameter "parameters") p.block
  | .switchCase => .switchCase none (p.node .expression "test") (p.nodes .statement "consequent")
  | .catchClause => .catchClause none (p.node .parameter "parameter") p.block
  | .block => p.block
  | .statement | .expression | .field => .absent

end Clues

-- ---------------------------------------------------------------------------
-- Recovery
-- ---------------------------------------------------------------------------

mutual

/-- The normal form of the node that a form was converted from. A record of nothing stands for a
hole. -/
def recover : Origin → Form → Node
  | .statement, .record [(key, .record members)] =>
    Clues.statement ⟨members, fun o name => recoverAt o name members,
      fun o name => recoverListAt o name members⟩ key
  | .expression, .record [(key, .record members)] =>
    Clues.expression ⟨members, fun o name => recoverAt o name members,
      fun o name => recoverListAt o name members⟩ key
  | .field, .record [("spread", x)] => .spreadElement none (recover .expression x)
  | .field, .record [(key, .record members)] =>
    Clues.field ⟨members, fun o name => recoverAt o name members,
      fun o name => recoverListAt o name members⟩ key
  | origin, .record members =>
    Clues.unnamed ⟨members, fun o name => recoverAt o name members,
      fun o name => recoverListAt o name members⟩ origin
  | _, _ => .absent

def recoverAt (o : Origin) (name : String) : Form.Members → Node
  | [] => .absent
  | (key, x) :: rest => if key = name then recover o x else recoverAt o name rest

def recoverList (o : Origin) : Form → List Node
  | .list items => recoverAll o items
  | _ => []

def recoverListAt (o : Origin) (name : String) : Form.Members → List Node
  | [] => []
  | (key, x) :: rest => if key = name then recoverList o x else recoverListAt o name rest

def recoverAll (o : Origin) : List Form → List Node
  | [] => []
  | x :: rest => recover o x :: recoverAll o rest

end

namespace Clues

/-- The parts of a record. -/
def of (members : Form.Members) : Clues :=
  ⟨members, fun o name => recoverAt o name members, fun o name => recoverListAt o name members⟩

variable {α : Type} {f : Form → α} {missing : α} {members : Form.Members} {x : Form}
  {name key : String} {o : Origin}

@[simp] theorem read_nil : (of []).read f missing name = missing := rfl

@[simp] theorem read_cons : (of ((key, x) :: members)).read f missing name =
    if key = name then f x else (of members).read f missing name := by
  by_cases h : key = name
  · simp [read, of, h]
  · have hb : (name == key) = false := beq_false_of_ne (Ne.symm h)
    simp [read, of, h, hb, List.lookup_cons]

@[simp] theorem node_nil : (of []).node o name = .absent := rfl

@[simp] theorem node_cons : (of ((key, x) :: members)).node o name =
    if key = name then recover o x else (of members).node o name := rfl

@[simp] theorem nodes_cons : (of ((key, x) :: members)).nodes o name =
    if key = name then recoverList o x else (of members).nodes o name := rfl

end Clues

@[simp] theorem recoverList_list {o : Origin} : recoverList o (.list xs) = recoverAll o xs := rfl

variable {members : Form.Members} {n : Node} {o : Origin}

theorem recover_statement :
    recover .statement (.wrap key members) = (Clues.of members).statement key := rfl

theorem recover_expression :
    recover .expression (.wrap key members) = (Clues.of members).expression key := rfl

-- ---------------------------------------------------------------------------
-- What each position gives back
-- ---------------------------------------------------------------------------

/-- What is recovered from the form of a node is its normal form. -/
structure Node.Recovers (n : Node) : Prop where
  statement (h : Script.statement n = .ok x) : recover .statement x = n.norm
  expression (h : Script.expression n = .ok x) : recover .expression x = n.norm
  parameter (h : Script.parameter n = .ok x) : recover .parameter x = n.norm
  declarator (h : Script.declarator n = .ok x) : recover .declarator x = n.norm
  loopHead (h : loopTarget n = .ok x) : recover .loopHead x = n.norm.head
  field (h : objectField n = .ok x) : recover .field x = n.norm
  block (hb : n.isBlock = true) (h : blockBody n = .ok xs) :
    .blockStatement none [] (recoverAll .statement xs) = n.norm
  members (hb : n.isClassBody = true) (h : Script.classBody n = .ok (properties, methods)) :
    .classBody none (recoverAll .property properties ++ recoverAll .method methods) = n.norm

/-- What is supposed of the nodes below. -/
abbrev Node.Restores : Node → Prop := Node.Supposed Node.proper Node.Recovers

-- ---------------------------------------------------------------------------
-- Lists
-- ---------------------------------------------------------------------------

theorem recoverAll_of_each {f : Node → Converted Form} (h : Each f ns xs)
    (hr : ∀ n ∈ ns, ∀ x, f n = .ok x → recover o x = n.norm) :
    recoverAll o xs = Node.norms ns := by
  induction h with
  | nil => rfl
  | cons hx _ ih =>
    rw [List.forall_mem_cons] at hr
    rw [recoverAll, Node.norms, hr.1 _ hx, ih hr.2]

theorem statements_recovered {ns : List Node} (ih : ∀ n ∈ ns, n.Recovers)
    (h : statements ns = .ok xs) : recoverAll .statement xs = Node.norms ns := by
  rw [statements_eq_mapM, mapM_ok] at h
  exact recoverAll_of_each h fun n hn _ => (ih n hn).statement

theorem expressions_recovered {ns : List Node} (ih : ∀ n ∈ ns, n.Recovers)
    (h : expressions ns = .ok xs) : recoverAll .expression xs = Node.norms ns := by
  rw [expressions_eq_mapM, mapM_ok] at h
  exact recoverAll_of_each h fun n hn _ => (ih n hn).expression

theorem parameters_recovered {ns : List Node} (ih : ∀ n ∈ ns, n.Recovers)
    (h : parameters ns = .ok xs) : recoverAll .parameter xs = Node.norms ns := by
  rw [parameters_eq_mapM, mapM_ok] at h
  exact recoverAll_of_each h fun n hn _ => (ih n hn).parameter

theorem declarators_recovered {ns : List Node} (ih : ∀ n ∈ ns, n.Recovers)
    (h : declarators ns = .ok xs) : recoverAll .declarator xs = Node.norms ns := by
  rw [declarators_eq_mapM, mapM_ok] at h
  exact recoverAll_of_each h fun n hn _ => (ih n hn).declarator

theorem objectFields_recovered {ns : List Node} (ih : ∀ n ∈ ns, n.Recovers)
    (h : objectFields ns = .ok xs) : recoverAll .field xs = Node.norms ns := by
  rw [objectFields_eq_mapM, mapM_ok] at h
  exact recoverAll_of_each h fun n hn _ => (ih n hn).field

theorem elements_recovered {ns : List Node} (ih : ∀ n ∈ ns, n.Recovers)
    (h : elements ns = .ok xs) : recoverAll .expression xs = Node.norms ns := by
  rw [elements_eq_mapM, mapM_ok] at h
  refine recoverAll_of_each h fun n hn x hx => ?_
  unfold element at hx
  split at hx
  · rw [← pure_ok.mp hx]
    rfl
  · exact (ih n hn).expression hx

theorem templateParts_recovered {ns : List Node} (h : templateParts ns = .ok xs) :
    (Form.asTexts (.list xs)).map (fun raw => .templateElement none raw none) = Node.norms ns := by
  induction ns generalizing xs with
  | nil =>
    rw [templateParts, pure_ok] at h
    rw [← h]
    rfl
  | cons n rest ih =>
    cases n <;> simp only [templateParts, bind_ok, pure_ok, throw_ok] at h
    obtain ⟨xs, hxs, rfl⟩ := h
    simp only [Node.norms, Node.norm, ← ih hxs, Form.asTexts, List.map_cons, Form.asText]

-- ---------------------------------------------------------------------------
-- Parts of nodes
-- ---------------------------------------------------------------------------

/-- A member for what may be absent is missing, or holds the form of what is there. -/
theorem optionally_recovered {f : Node → Converted Form}
    (h : optionally key n (fun _ => f n) = .ok members)
    (hr : ∀ x, f n = .ok x → recover o x = n.norm) :
    (n = .absent ∧ members = []) ∨ ∃ x, members = [(key, x)] ∧ recover o x = n.norm := by
  unfold optionally at h
  split at h
  · exact .inl ⟨rfl, (pure_ok.mp h).symm⟩
  · simp only [bind_ok, pure_ok] at h
    obtain ⟨x, hx, rfl⟩ := h
    exact .inr ⟨x, rfl, hr x hx⟩

theorem nameMember_cases (hi : n.isIdentifier = true) (h : nameMember key n = .ok members) :
    ∃ p name, n = .identifier p name ∧ members = [(key, .text name)] := by
  cases n <;> cases hi
  exact ⟨_, _, rfl, (pure_ok.mp h).symm⟩

/-- The name of a function or class is not empty, so that an empty one can stand for none. -/
theorem nameOrEmpty_cases (hi : n.isOptional Node.isIdentifier = true) (hp : n.plain = true) :
    (n = .absent ∧ nameOrEmpty n = [("name", .text [])]) ∨
      ∃ p name, n = .identifier p name ∧ name ≠ [] ∧ nameOrEmpty n = [("name", .text name)] := by
  cases n <;> cases hi
  · exact .inl ⟨rfl, rfl⟩
  · exact .inr ⟨_, _, rfl, by simpa [Node.plain] using hp, rfl⟩

theorem labelMember_cases (hi : n.isOptional Node.isIdentifier = true) :
    (n = .absent ∧ labelMember n = []) ∨
      ∃ p name, n = .identifier p name ∧ labelMember n = [("label", .text name)] := by
  cases n <;> cases hi
  · exact .inl ⟨rfl, rfl⟩
  · exact .inr ⟨_, _, rfl, rfl⟩

theorem label_recovered (hi : n.isOptional Node.isIdentifier = true) :
    (Clues.of (labelMember n)).label = n.norm := by
  rcases labelMember_cases hi with ⟨rfl, h⟩ | ⟨p, name, rfl, h⟩
  · rw [h]
    rfl
  · simp [h, Clues.label, Node.norm]

theorem functionBody_recovered (hb : n.isBlock = true) (ih : n.Recovers)
    (h : functionBody n (fun _ => blockBody n) (fun _ => statement n) = .ok xs) :
    .blockStatement none [] (recoverAll .statement xs) = n.norm := by
  cases n <;> simp only [Node.isBlock, Bool.false_eq_true] at hb
  exact ih.block rfl h

/-- The three forms of a key, with its normal form for a property and for a method. -/
theorem propertyKey_forms (h : propertyKey computed n convert = .ok members) :
    (computed = true ∧ ∃ x, convert () = .ok x ∧ members = [("expression", x)]) ∨
      (computed = false ∧ ∃ name, n.writtenKey = .named name ∧ n.methodKey = .named name ∧
        members = [("name", .text name)]) ∨
      (computed = false ∧ ∃ x, n.writtenKey = .numericLiteral none x ∧
        n.methodKey = .named (Node.numberName x) ∧ members = [("index", .number x)]) := by
  cases computed with
  | true =>
    simp only [propertyKey, bind_ok, pure_ok] at h
    obtain ⟨x, hx, rfl⟩ := h
    exact .inl ⟨rfl, x, hx, rfl⟩
  | false =>
    simp only [propertyKey] at h
    cases n <;> simp only [plainKey, refuseAt_ok, pure_ok] at h
    case identifier name => exact .inr (.inl ⟨rfl, name, rfl, rfl, h.symm⟩)
    case stringLiteral name => exact .inr (.inl ⟨rfl, name, rfl, rfl, h.symm⟩)
    case numericLiteral x =>
      rw [Node.writtenKey]
      split at h
      · rename_i hx
        rw [if_pos hx]
        exact .inr (.inr ⟨rfl, x, rfl, rfl, h.symm⟩)
      · rename_i hx
        rw [if_neg hx]
        exact .inr (.inl ⟨rfl, _, rfl, rfl, h.symm⟩)

theorem memberProperty_cases (hp : (computed || n.isIdentifier) = true)
    (h : memberProperty computed n convert = .ok members) :
    (computed = true ∧ ∃ x, convert () = .ok x ∧ members = [("expression", x)]) ∨
      (computed = false ∧ ∃ p name, n = .identifier p name ∧ members = [("name", .text name)]) := by
  cases computed with
  | true =>
    simp only [memberProperty, bind_ok, pure_ok] at h
    obtain ⟨x, hx, rfl⟩ := h
    exact .inl ⟨rfl, x, hx, rfl⟩
  | false => exact .inr ⟨rfl, nameMember_cases hp h⟩

theorem declarationMembers_recovered {m : Node} {declarations : List Node}
    (hk : Node.declarationKinds.contains kind = true) (ih : ∀ d ∈ declarations, d.Recovers)
    (h : declarationMembers m kind (fun _ => declarators declarations) = .ok members) :
    (Clues.of members).declaration = .variableDeclaration none kind (Node.norms declarations) := by
  unfold declarationMembers at h
  split at h
  · simp at h
  · rename_i found hf
    simp only [bind_ok, pure_ok] at h
    obtain ⟨xs, hxs, rfl⟩ := h
    have hxs := declarators_recovered ih hxs
    simp only [Node.declarationKinds, List.map_cons, List.map_nil, List.contains_iff_mem,
      List.mem_cons, List.not_mem_nil, or_false] at hk
    rcases hk with rfl | rfl | rfl | rfl | rfl <;>
      simp only [declarationKind?, Text.toString?_ofString, Option.some.injEq] at hf
    · subst hf
      simp [Clues.declaration, Clues.kind, Form.choice, Text.toString?_ofString, hxs]
    · subst hf
      simp [Clues.declaration, Clues.kind, Form.choice, Text.toString?_ofString, hxs]
    · subst hf
      simp [Clues.declaration, Clues.kind, Form.choice, Text.toString?_ofString, hxs]
    · simp [inheritedNames] at hf
    · simp [inheritedNames] at hf

/-- The start of a counting loop tells a declaration from an expression. -/
theorem loopStart_recovered (ih : n.Restores)
    (h : loopStart n (fun _ => declarations n) (fun _ => expression n) = .ok members) :
    (members = [] ∧ n = .absent) ∨
      (∃ x, members = [("expression", x)] ∧ recover .expression x = n.norm) ∨
      ∃ x, members = [("declaration", x)] ∧ recover .declaration x = n.norm := by
  unfold loopStart at h
  split at h
  · exact .inl ⟨(pure_ok.mp h).symm, rfl⟩
  · simp only [bind_ok, pure_ok] at h
    obtain ⟨ms, hms, rfl⟩ := h
    have hc := ih.holds
    simp only [Node.proper, Node.complete, Bool.and_eq_true] at hc
    exact .inr (.inr ⟨_, rfl,
      declarationMembers_recovered hc.1.1 (Node.Supposed.all ih.deeper) hms⟩)
  · simp only [bind_ok, pure_ok] at h
    obtain ⟨x, hx, rfl⟩ := h
    exact .inr (.inl ⟨x, rfl, ih.self.expression hx⟩)

-- ---------------------------------------------------------------------------
-- Bindings
-- ---------------------------------------------------------------------------

theorem recover_parameter :
    recover .parameter (.record members) = (Clues.of members).parameter := rfl

theorem recover_declarator :
    recover .declarator (.record members) = (Clues.of members).declarator := rfl

theorem recover_loopHead : recover .loopHead (.record members) =
    (Node.variableDeclaration none [] [(Clues.of members).declarator]).head := rfl

theorem parameter_recovers (ih : ∀ c ∈ n.children, c.Restores) (h : parameter n = .ok x) :
    recover .parameter x = n.norm := by
  unfold parameter at h
  split at h
  · rw [← pure_ok.mp h]
    simp [recover_parameter, Clues.parameter, Node.norm]
  · simp only [Node.children, List.forall_mem_cons] at ih
    obtain ⟨-, ihright, -⟩ := ih
    simp only [bind_ok, pure_ok] at h
    obtain ⟨y, hy, rfl⟩ := h
    simp [recover_parameter, Clues.parameter, Node.norm, ihright.self.expression hy]
  · simp at h
  · rw [← pure_ok.mp h]
    simp [recover_parameter, Clues.parameter, Node.norm]
  · simp at h
  · simp at h

theorem declarator_recovers (ih : ∀ c ∈ n.children, c.Restores) (h : declarator n = .ok x) :
    recover .declarator x = n.norm := by
  unfold declarator at h
  split at h
  · simp only [Node.children, List.forall_mem_cons] at ih
    obtain ⟨-, ihinit, -⟩ := ih
    simp only [bind_ok, pure_ok] at h
    obtain ⟨members, hm, rfl⟩ := h
    rcases optionally_recovered hm (fun _ => ihinit.self.expression) with
      ⟨rfl, rfl⟩ | ⟨y, rfl, hy⟩
    · simp [recover_declarator, Clues.declarator, Node.norm]
    · simp [recover_declarator, Clues.declarator, Node.norm, hy]
  · simp at h
  · simp at h

/-- The form of a loop head is that of a declarator, read as one without a kind. -/
theorem loopHead_of_declarator (h : recover .declarator (.record members) = d) :
    recover .loopHead (.record members) = (Node.variableDeclaration none [] [d]).head := by
  rw [recover_loopHead, ← recover_declarator, h]

theorem loopTarget_recovers (ih : ∀ c ∈ n.children, c.Restores) (h : loopTarget n = .ok x) :
    recover .loopHead x = n.norm.head := by
  unfold loopTarget at h
  split at h
  · rename_i kind declaration
    have hd := (ih declaration List.mem_cons_self).self.declarator h
    unfold declarator at h
    split at h
    · rename_i p name init
      simp only [bind_ok, pure_ok] at h
      obtain ⟨members, hm, rfl⟩ := h
      rw [loopHead_of_declarator hd]
      simp only [Node.norm, Node.norms]
      generalize init.norm = init
      cases init <;> rfl
    · simp at h
    · simp at h
  · rw [← pure_ok.mp h]
    simp [recover_loopHead, Clues.declarator, Node.norm, Node.head]
  · simp at h

theorem recover_catchClause : recover .catchClause (.record members) =
    .catchClause none ((Clues.of members).node .parameter "parameter") (Clues.of members).block :=
  rfl

theorem catchMember_cases (ih : n.Restores) (h : catchMember n = .ok members) :
    (n = .absent ∧ members = []) ∨
      ∃ x, members = [("catchClause", x)] ∧ recover .catchClause x = n.norm := by
  have hc := ih.holds
  have ih := ih.deeper
  cases n <;> simp only [catchMember, throw_ok, bind_ok, pure_ok] at h
  case absent => exact .inl ⟨rfl, h.symm⟩
  case catchClause param body =>
    simp only [Node.proper, Node.complete, Node.plain, Bool.and_true] at hc
    simp only [Node.children, List.forall_mem_cons] at ih
    obtain ⟨ihparam, ihbody, -⟩ := ih
    obtain ⟨xs, hxs, found, hf, rfl⟩ := h
    refine .inr ⟨_, rfl, ?_⟩
    have hb := ihbody.self.block hc hxs
    rcases optionally_recovered hf (fun _ => ihparam.self.parameter) with
      ⟨rfl, rfl⟩ | ⟨y, rfl, hy⟩
    · simp [recover_catchClause, Clues.block, Node.norm, hb]
    · simp [recover_catchClause, Clues.block, Node.norm, hb, hy]

theorem recover_switchCase : recover .switchCase (.record members) =
    .switchCase none ((Clues.of members).node .expression "test")
      ((Clues.of members).nodes .statement "consequent") := rfl

theorem switchCases_recovered {ns : List Node} (ih : ∀ n ∈ ns, n.Restores)
    (h : switchCases ns = .ok xs) : recoverAll .switchCase xs = Node.norms ns := by
  rw [switchCases_eq_mapM, mapM_ok] at h
  refine recoverAll_of_each h fun n hn x hx => ?_
  have ih := (ih n hn).deeper
  cases n <;> simp only [switchCase, throw_ok, bind_ok, pure_ok] at hx
  case switchCase test consequent =>
    simp only [Node.children, List.forall_mem_cons] at ih
    obtain ⟨ihtest, ihconsequent⟩ := ih
    obtain ⟨xs, hxs, members, hm, rfl⟩ := hx
    have hxs := statements_recovered (Node.Supposed.all ihconsequent) hxs
    rcases optionally_recovered hm (fun _ => ihtest.self.expression) with
      ⟨rfl, rfl⟩ | ⟨y, rfl, hy⟩
    · simp [recover_switchCase, Node.norm, hxs]
    · simp [recover_switchCase, Node.norm, hxs, hy]

-- ---------------------------------------------------------------------------
-- Fields and members
-- ---------------------------------------------------------------------------

theorem recover_objectProperty :
    recover .field (.wrap "property" members) = (Clues.of members).field "property" := rfl

theorem recover_objectMethod :
    recover .field (.wrap "method" members) = (Clues.of members).field "method" := rfl

theorem recover_spread :
    recover .field (.record [("spread", x)]) = .spreadElement none (recover .expression x) := rfl

theorem objectField_recovers (hc : n.proper = true) (ih : ∀ c ∈ n.children, c.Restores)
    (h : objectField n = .ok x) : recover .field x = n.norm := by
  cases n <;> simp only [objectField, bind_ok, pure_ok, refuseAt_ok] at h <;>
    simp only [Node.children, List.forall_mem_cons] at ih
  case objectProperty key value =>
    obtain ⟨ihkey, ihvalue, -⟩ := ih
    obtain ⟨v, hv, members, hm, rfl⟩ := h
    have hv := ihvalue.self.expression hv
    rcases propertyKey_forms hm with
      ⟨rfl, y, hy, rfl⟩ | ⟨rfl, name, hk, -, rfl⟩ | ⟨rfl, y, hk, -, rfl⟩
    · simp [recover_objectProperty, Clues.field, Clues.key, Node.norm, hv,
        ihkey.self.expression hy]
    · simp [recover_objectProperty, Clues.field, Clues.key, Node.norm, hv, hk]
    · simp [recover_objectProperty, Clues.field, Clues.key, Node.norm, hv, hk]
  case objectMethod key params body =>
    simp only [Node.proper, Node.plain, Bool.and_eq_true] at hc
    obtain ⟨-, hb⟩ := hc
    obtain ⟨ihkey, ihbody, ihparams⟩ := ih
    obtain ⟨members, hm, ps, hps, xs, hxs, rfl⟩ := h
    have hps := parameters_recovered (Node.Supposed.all ihparams) hps
    have hxs := functionBody_recovered hb ihbody.self hxs
    rcases propertyKey_forms hm with
      ⟨rfl, y, hy, rfl⟩ | ⟨rfl, name, -, hk, rfl⟩ | ⟨rfl, y, -, hk, rfl⟩
    · simp [recover_objectMethod, nameOnly, Clues.field, Clues.key, Clues.block, Node.norm, hps,
        hxs, ihkey.self.expression hy]
    · simp [recover_objectMethod, nameOnly, Clues.field, Clues.key, Clues.block, Node.norm, hps,
        hxs, hk]
    · simp [recover_objectMethod, nameOnly, Clues.field, Clues.key, Clues.block, Node.norm, hps,
        hxs, hk, Node.numberName]
  case spreadElement argument =>
    obtain ⟨ihargument, -⟩ := ih
    obtain ⟨y, hy, rfl⟩ := h
    rw [recover_spread, ihargument.self.expression hy, Node.norm]

theorem recover_property : recover .property (.record members) =
    .classProperty none ((Clues.of members).flag "isStatic") ((Clues.of members).has "expression")
      (Clues.of members).key ((Clues.of members).node .expression "value") := rfl

theorem recover_method : recover .method (.record members) =
    .classMethod none ((Clues.of members).flag "isStatic") false ((Clues.of members).text "kind")
      ⟨false, false⟩ (.named ((Clues.of members).text "name"))
      ((Clues.of members).nodes .parameter "parameters") (Clues.of members).block := rfl

theorem classProperty_recovers (ih : ∀ c ∈ n.children, c.Restores) (h : classProperty n = .ok x) :
    recover .property x = n.norm := by
  cases n <;> simp only [classProperty, bind_ok, pure_ok, throw_ok] at h
  simp only [Node.children, List.forall_mem_cons] at ih
  obtain ⟨ihkey, ihvalue, -⟩ := ih
  obtain ⟨named, hn, valued, hv, rfl⟩ := h
  rcases propertyKey_forms hn with
      ⟨rfl, y, hy, rfl⟩ | ⟨rfl, name, hk, -, rfl⟩ | ⟨rfl, y, hk, -, rfl⟩ <;>
    rcases optionally_recovered hv (fun _ => ihvalue.self.expression) with
      ⟨rfl, rfl⟩ | ⟨v, rfl, hx⟩
  · simp [recover_property, Clues.key, Node.norm, ihkey.self.expression hy]
  · simp [recover_property, Clues.key, Node.norm, ihkey.self.expression hy, hx]
  · simp [recover_property, Clues.key, Node.norm, hk]
  · simp [recover_property, Clues.key, Node.norm, hk, hx]
  · simp [recover_property, Clues.key, Node.norm, hk]
  · simp [recover_property, Clues.key, Node.norm, hk, hx]

theorem methodName_eq (h : methodName n = .ok name) : name = n.memberName := by
  unfold methodName at h
  split at h
  · simp at h
  · exact (pure_ok.mp h).symm

theorem classMethod_recovers (hc : n.proper = true) (ih : ∀ c ∈ n.children, c.Restores)
    (h : classMethod n = .ok x) : recover .method x = n.norm := by
  cases n <;> simp only [classMethod, throw_ok] at h
  case classMethod computed _ _ key params body =>
    simp only [Node.proper, Node.plain, Bool.and_eq_true] at hc
    simp only [Node.children, List.forall_mem_cons] at ih
    obtain ⟨-, hb⟩ := hc
    obtain ⟨-, ihbody, ihparams⟩ := ih
    cases computed <;> simp only [bind_ok, pure_ok, throw_ok] at h
    obtain ⟨name, hn, ps, hps, xs, hxs, rfl⟩ := h
    have hps := parameters_recovered (Node.Supposed.all ihparams) hps
    have hxs := functionBody_recovered hb ihbody.self hxs
    simp [recover_method, Clues.block, Node.norm, hps, hxs, methodName_eq hn]

/-- Properties and methods come back in two groups, as the normal form has them. -/
theorem classBody_recovers (ih : ∀ c ∈ n.children, c.Restores) (hb : n.isClassBody = true)
    (h : classBody n = .ok (properties, methods)) :
    .classBody none (recoverAll .property properties ++ recoverAll .method methods) = n.norm := by
  cases n <;> simp only [Node.isClassBody, Bool.false_eq_true] at hb
  case classBody body =>
    obtain ⟨hp, hm, hall⟩ := classMembers_ok.mp h
    have hp : recoverAll .property properties = (Node.norms body).filter Node.isProperty := by
      rw [Node.filter_norms fun n hn => (Node.kind_norm (hall n hn)).1, ← Node.norms_eq_map]
      exact recoverAll_of_each hp fun n hn _ =>
        classProperty_recovers (ih n (List.mem_filter.mp hn).1).deeper
    have hm : recoverAll .method methods = (Node.norms body).filter Node.isMethod := by
      rw [Node.filter_norms fun n hn => (Node.kind_norm (hall n hn)).2, ← Node.norms_eq_map]
      refine recoverAll_of_each hm fun n hn _ => ?_
      have ih := ih n (List.mem_filter.mp hn).1
      exact classMethod_recovers ih.holds ih.deeper
    rw [Node.norm, Node.arranged, hp, hm]

-- ---------------------------------------------------------------------------
-- Statements
-- ---------------------------------------------------------------------------

theorem blockBody_recovers (ih : ∀ c ∈ n.children, c.Restores) (hb : n.isBlock = true)
    (h : blockBody n = .ok xs) : .blockStatement none [] (recoverAll .statement xs) = n.norm := by
  cases n <;> simp only [Node.isBlock, Bool.false_eq_true] at hb
  case blockStatement body =>
    have hbody : recoverAll .statement xs = Node.norms body :=
      statements_recovered (Node.Supposed.all ih) h
    rw [hbody, Node.norm]

theorem recover_block :
    recover .block (.record members) = (Clues.of members).block := rfl

theorem finallyClause_recovers (hb : n.isOptional Node.isBlock = true) (ih : n.Recovers)
    (h : finallyClause n = .ok x) : recover .block x = n.norm := by
  simp only [finallyClause, bind_ok, pure_ok] at h
  obtain ⟨xs, hxs, rfl⟩ := h
  cases n <;> simp only [Node.isOptional, Node.isPresent, Node.isBlock, Bool.not_true,
    Bool.or_self, Bool.false_eq_true] at hb
  case absent => cases hxs
  case blockStatement => simp [recover_block, Clues.block, ih.block rfl hxs]

theorem statement_recovers (hc : n.proper = true) (ih : ∀ c ∈ n.children, c.Restores)
    (h : statement n = .ok x) : recover .statement x = n.norm := by
  rw [Node.proper, Bool.and_eq_true] at hc
  obtain ⟨hc, hp⟩ := hc
  cases n <;> simp only [statement, bind_ok, pure_ok, refuseAt_ok] at h <;>
    simp only [Node.children, List.forall_mem_cons] at ih <;>
    simp only [Node.complete, Node.plain, Bool.and_eq_true] at hc hp <;>
    simp only [Node.norm]
  case emptyStatement => rw [← h]; rfl
  case blockStatement body =>
    obtain ⟨xs, hxs, rfl⟩ := h
    simp [recover_statement, Clues.statement, Clues.block,
      statements_recovered (Node.Supposed.all ih) hxs]
  case variableDeclaration list =>
    obtain ⟨members, hm, rfl⟩ := h
    rw [recover_statement, Clues.statement,
      declarationMembers_recovered hc.1 (Node.Supposed.all ih) hm]
  case functionDeclaration id params body =>
    obtain ⟨-, ihbody, ihparams⟩ := ih
    obtain ⟨name, hn, ps, hps, xs, hxs, rfl⟩ := h
    obtain ⟨p, name, rfl, rfl⟩ := nameMember_cases hc.1.1 hn
    simp [recover_statement, Clues.statement, Clues.block, Node.norm,
      parameters_recovered (Node.Supposed.all ihparams) hps,
      functionBody_recovered hp ihbody.self hxs]
  case classDeclaration id superClass body =>
    obtain ⟨ihid, ihsuper, ihbody, -⟩ := ih
    obtain ⟨parent, hparent, ⟨properties, methods⟩, hm, rfl⟩ := h
    have hm := ihbody.self.members hc.2 hm
    have hp := ihid.holds
    rw [Node.proper, Bool.and_eq_true] at hp
    rcases optionally_recovered hparent (fun _ => ihsuper.self.expression) with
        ⟨rfl, rfl⟩ | ⟨y, rfl, hy⟩ <;>
      rcases nameOrEmpty_cases hc.1 hp.2 with ⟨rfl, he⟩ | ⟨p, name, rfl, hne, he⟩ <;>
      rw [he]
    · simp [recover_statement, Clues.statement, Clues.classBody, Clues.ownName, Node.norm, hm]
    · simp [recover_statement, Clues.statement, Clues.classBody, Clues.ownName, Node.norm, hm, hne]
    · simp [recover_statement, Clues.statement, Clues.classBody, Clues.ownName, Node.norm, hm, hy]
    · simp [recover_statement, Clues.statement, Clues.classBody, Clues.ownName, Node.norm, hm, hne,
        hy]
  case returnStatement argument =>
    obtain ⟨ihargument, -⟩ := ih
    obtain ⟨members, hm, rfl⟩ := h
    rcases optionally_recovered hm (fun _ => ihargument.self.expression) with
      ⟨rfl, rfl⟩ | ⟨y, rfl, hy⟩
    · rfl
    · simp [recover_statement, Clues.statement, hy]
  case expressionStatement e =>
    obtain ⟨ihe, -⟩ := ih
    obtain ⟨y, hy, rfl⟩ := h
    simp [recover_statement, Clues.statement, ihe.self.expression hy]
  case ifStatement test consequent alternate =>
    obtain ⟨ihtest, ihconsequent, ihalternate, -⟩ := ih
    obtain ⟨t, ht, yes, hy, no, hn, rfl⟩ := h
    have ht := ihtest.self.expression ht
    have hy := ihconsequent.self.statement hy
    rcases optionally_recovered hn (fun _ => ihalternate.self.statement) with
      ⟨rfl, rfl⟩ | ⟨z, rfl, hz⟩
    · simp [recover_statement, Clues.statement, Node.norm, ht, hy]
    · simp [recover_statement, Clues.statement, ht, hy, hz]
  case whileStatement test body =>
    obtain ⟨ihtest, ihbody, -⟩ := ih
    obtain ⟨t, ht, b, hb, rfl⟩ := h
    simp [recover_statement, Clues.statement, ihtest.self.expression ht, ihbody.self.statement hb]
  case doWhileStatement body test =>
    obtain ⟨ihbody, ihtest, -⟩ := ih
    obtain ⟨b, hb, t, ht, rfl⟩ := h
    simp [recover_statement, Clues.statement, ihtest.self.expression ht, ihbody.self.statement hb]
  case forStatement init test update body =>
    obtain ⟨ihinit, ihtest, ihupdate, ihbody, -⟩ := ih
    obtain ⟨b, hb, start, hs, condition, ht, step, hu, rfl⟩ := h
    have hb := ihbody.self.statement hb
    -- Each of the three parts of the head is there or not, and the first one is of two kinds.
    rcases loopStart_recovered ihinit hs with ⟨rfl, rfl⟩ | ⟨i, rfl, hi⟩ | ⟨i, rfl, hi⟩ <;>
      rcases optionally_recovered ht (fun _ => ihtest.self.expression) with
        ⟨rfl, rfl⟩ | ⟨t, rfl, ht⟩ <;>
      rcases optionally_recovered hu (fun _ => ihupdate.self.expression) with
        ⟨rfl, rfl⟩ | ⟨u, rfl, hu⟩ <;>
      simp [recover_statement, Clues.statement, Node.norm, *]
  case forInStatement left right body =>
    obtain ⟨ihleft, ihright, ihbody, -⟩ := ih
    obtain ⟨l, hl, r, hr, b, hb, rfl⟩ := h
    simp [recover_statement, Clues.statement, ihleft.self.loopHead hl, ihright.self.expression hr,
      ihbody.self.statement hb]
  case forOfStatement left right body =>
    obtain ⟨ihleft, ihright, ihbody, -⟩ := ih
    obtain ⟨l, hl, r, hr, b, hb, rfl⟩ := h
    simp [recover_statement, Clues.statement, ihleft.self.loopHead hl, ihright.self.expression hr,
      ihbody.self.statement hb]
  case breakStatement label => rw [← h, recover_statement, Clues.statement, label_recovered hc]
  case continueStatement label => rw [← h, recover_statement, Clues.statement, label_recovered hc]
  case tryStatement block handler finalizer =>
    obtain ⟨ihblock, ihhandler, ihfinalizer, -⟩ := ih
    obtain ⟨xs, hxs, caught, hh, final, hf, rfl⟩ := h
    have hxs := ihblock.self.block hc.1.1 hxs
    rcases catchMember_cases ihhandler hh with ⟨rfl, rfl⟩ | ⟨y, rfl, hy⟩ <;>
      rcases optionally_recovered (f := finallyClause) hf
        (fun _ => finallyClause_recovers hc.2 ihfinalizer.self) with ⟨rfl, rfl⟩ | ⟨z, rfl, hz⟩
    · simp [recover_statement, Clues.statement, Clues.block, Node.norm, hxs]
    · simp [recover_statement, Clues.statement, Clues.block, Node.norm, hxs, hz]
    · simp [recover_statement, Clues.statement, Clues.block, Node.norm, hxs, hy]
    · simp [recover_statement, Clues.statement, Clues.block, hxs, hy, hz]
  case throwStatement argument =>
    obtain ⟨ihargument, -⟩ := ih
    obtain ⟨y, hy, rfl⟩ := h
    simp [recover_statement, Clues.statement, ihargument.self.expression hy]
  case switchStatement discriminant cases =>
    obtain ⟨ihdiscriminant, ihcases⟩ := ih
    obtain ⟨d, hd, xs, hxs, rfl⟩ := h
    simp [recover_statement, Clues.statement, ihdiscriminant.self.expression hd,
      switchCases_recovered ihcases hxs]

-- ---------------------------------------------------------------------------
-- Expressions
-- ---------------------------------------------------------------------------

/-- The body of an arrow function tells a block from an expression. -/
theorem arrowBody_recovered (ih : n.Recovers)
    (h : arrowBody n (fun _ => blockBody n) (fun _ => expression n) = .ok members) :
    (∃ x, members = [("block", x)] ∧ recover .statement x = n.norm) ∨
      ∃ x, members = [("expression", x)] ∧ recover .expression x = n.norm := by
  unfold arrowBody at h
  split at h
  · simp only [bind_ok, pure_ok] at h
    obtain ⟨xs, hxs, rfl⟩ := h
    refine .inl ⟨_, rfl, ?_⟩
    simp [recover_statement, Clues.statement, Clues.block, ih.block rfl hxs]
  · split at h <;> simp at h
  · simp only [bind_ok, pure_ok] at h
    obtain ⟨x, hx, rfl⟩ := h
    exact .inr ⟨x, rfl, ih.expression hx⟩

theorem expression_recovers (hc : n.proper = true) (ih : ∀ c ∈ n.children, c.Restores)
    (h : expression n = .ok x) : recover .expression x = n.norm := by
  rw [Node.proper, Bool.and_eq_true] at hc
  obtain ⟨hc, hp⟩ := hc
  cases n <;> simp only [expression, bind_ok, pure_ok, refuseAt_ok] at h <;>
    simp only [Node.children, List.forall_mem_cons] at ih <;>
    simp only [Node.complete, Node.plain, Bool.and_eq_true] at hc hp <;>
    simp only [Node.norm]
  case identifier => simp [← h, recover_expression, Clues.expression]
  case numericLiteral => simp [← h, recover_expression, Clues.expression]
  case bigIntLiteral => simp [← h, recover_expression, Clues.expression]
  case stringLiteral => simp [← h, recover_expression, Clues.expression]
  case templateLiteral quasis values =>
    rw [List.forall_mem_append] at ih
    obtain ⟨parts, hparts, xs, hxs, rfl⟩ := h
    simp [recover_expression, Clues.expression, templateParts_recovered hparts,
      expressions_recovered (Node.Supposed.all ih.2) hxs]
  case regExpLiteral => simp [← h, recover_expression, Clues.expression]
  case booleanLiteral => simp [← h, recover_expression, Clues.expression]
  case nullLiteral => simp [← h, recover_expression, Clues.expression]
  case thisExpression => simp [← h, recover_expression, Clues.expression]
  case arrayExpression values =>
    obtain ⟨xs, hxs, rfl⟩ := h
    simp [recover_expression, Clues.expression, elements_recovered (Node.Supposed.all ih) hxs]
  case objectExpression properties =>
    obtain ⟨xs, hxs, rfl⟩ := h
    simp [recover_expression, Clues.expression, objectFields_recovered (Node.Supposed.all ih) hxs]
  case functionExpression id params body =>
    obtain ⟨ihid, ihbody, ihparams⟩ := ih
    obtain ⟨ps, hps, xs, hxs, rfl⟩ := h
    have hps := parameters_recovered (Node.Supposed.all ihparams) hps
    have hxs := functionBody_recovered hp ihbody.self hxs
    have hid := ihid.holds
    rw [Node.proper, Bool.and_eq_true] at hid
    rcases nameOrEmpty_cases hc.1.1 hid.2 with ⟨rfl, he⟩ | ⟨p, name, rfl, hne, he⟩ <;> rw [he]
    · simp [recover_expression, Clues.expression, Clues.ownName, Clues.block, Node.norm, hps, hxs]
    · simp [recover_expression, Clues.expression, Clues.ownName, Clues.block, Node.norm, hps, hxs,
        hne]
  case arrowFunctionExpression params body =>
    obtain ⟨ihbody, ihparams⟩ := ih
    obtain ⟨ps, hps, members, hm, rfl⟩ := h
    have hps := parameters_recovered (Node.Supposed.all ihparams) hps
    rcases arrowBody_recovered ihbody.self hm with ⟨y, rfl, hy⟩ | ⟨y, rfl, hy⟩
    · simp [recover_expression, Clues.expression, hps, hy]
    · simp [recover_expression, Clues.expression, hps, hy]
  case callExpression callee arguments =>
    obtain ⟨ihcallee, iharguments⟩ := ih
    obtain ⟨c, hcallee, xs, hxs, rfl⟩ := h
    simp [recover_expression, Clues.expression, ihcallee.self.expression hcallee,
      expressions_recovered (Node.Supposed.all iharguments) hxs]
  case newExpression callee arguments =>
    obtain ⟨ihcallee, iharguments⟩ := ih
    obtain ⟨c, hcallee, xs, hxs, rfl⟩ := h
    simp [recover_expression, Clues.expression, ihcallee.self.expression hcallee,
      expressions_recovered (Node.Supposed.all iharguments) hxs]
  case memberExpression computed object property =>
    obtain ⟨ihobject, ihproperty, -⟩ := ih
    obtain ⟨o, ho, members, hm, rfl⟩ := h
    have ho := ihobject.self.expression ho
    rcases memberProperty_cases hp hm with ⟨rfl, y, hy, rfl⟩ | ⟨rfl, p, name, rfl, rfl⟩
    · simp [recover_expression, Clues.expression, ho, ihproperty.self.expression hy]
    · simp [recover_expression, Clues.expression, Node.norm, ho]
  case unaryExpression argument =>
    obtain ⟨ihargument, -⟩ := ih
    obtain ⟨y, hy, rfl⟩ := h
    simp [recover_expression, Clues.expression, ihargument.self.expression hy]
  case binaryExpression left right =>
    obtain ⟨ihleft, ihright, -⟩ := ih
    obtain ⟨l, hl, r, hr, rfl⟩ := h
    simp [recover_expression, Clues.expression, ihleft.self.expression hl,
      ihright.self.expression hr]
  case updateExpression argument =>
    obtain ⟨ihargument, -⟩ := ih
    obtain ⟨y, hy, rfl⟩ := h
    simp [recover_expression, Clues.expression, ihargument.self.expression hy]
  case assignmentExpression left right =>
    obtain ⟨ihleft, ihright, -⟩ := ih
    obtain ⟨l, hl, r, hr, rfl⟩ := h
    simp [recover_expression, Clues.expression, ihleft.self.expression hl,
      ihright.self.expression hr]
  case conditionalExpression test consequent alternate =>
    obtain ⟨ihtest, ihconsequent, ihalternate, -⟩ := ih
    obtain ⟨t, ht, y, hy, e, he, rfl⟩ := h
    simp [recover_expression, Clues.expression, ihtest.self.expression ht,
      ihconsequent.self.expression hy, ihalternate.self.expression he]
  case sequenceExpression values =>
    obtain ⟨xs, hxs, rfl⟩ := h
    simp [recover_expression, Clues.expression, expressions_recovered (Node.Supposed.all ih) hxs]
  case awaitExpression argument =>
    obtain ⟨ihargument, -⟩ := ih
    obtain ⟨y, hy, rfl⟩ := h
    simp [recover_expression, Clues.expression, ihargument.self.expression hy]
  case yieldExpression argument =>
    obtain ⟨ihargument, -⟩ := ih
    obtain ⟨members, hm, rfl⟩ := h
    rcases optionally_recovered hm (fun _ => ihargument.self.expression) with
      ⟨rfl, rfl⟩ | ⟨y, rfl, hy⟩
    · simp [recover_expression, Clues.expression, Node.norm]
    · simp [recover_expression, Clues.expression, hy]
  case spreadElement argument =>
    obtain ⟨ihargument, -⟩ := ih
    obtain ⟨y, hy, rfl⟩ := h
    simp [recover_expression, Clues.expression, ihargument.self.expression hy]
  case parenthesizedExpression e =>
    obtain ⟨ihe, -⟩ := ih
    exact ihe.self.expression h
  case intrinsicIdentifier => simp [← h, recover_expression, Clues.expression]

-- ---------------------------------------------------------------------------
-- Whole scripts
-- ---------------------------------------------------------------------------

theorem Node.Every.recovers (h : Node.Every Node.proper n) : n.Recovers :=
  Node.Every.induction (fun _ hc ih => {
    statement := statement_recovers hc ih
    expression := expression_recovers hc ih
    parameter := parameter_recovers ih
    declarator := declarator_recovers ih
    loopHead := loopTarget_recovers ih
    field := objectField_recovers hc ih
    block := blockBody_recovers ih
    members := classBody_recovers ih }) h

/-- The script that a form was converted from, in normal form. -/
def Program.recover : Form → Program
  | .record members => ⟨[], recoverListAt .statement "statements" members⟩
  | _ => ⟨[], []⟩

/-- A usual script: bodies of functions and methods are blocks, names are not empty, and no private
name is asked for. -/
def Program.Plain (p : Program) : Prop := ∀ n ∈ p.body, Node.Every Node.plain n

theorem Node.every_and {p q : Node → Bool} :
    Node.Every (fun n => p n && q n) n ↔ Node.Every p n ∧ Node.Every q n := by
  constructor
  · intro h
    induction h with
    | mk h _ ih =>
      rw [Bool.and_eq_true] at h
      exact ⟨.mk h.1 fun c hc => (ih c hc).1, .mk h.2 fun c hc => (ih c hc).2⟩
  · rintro ⟨hp, hq⟩
    induction hp with
    | mk h _ ih =>
      cases hq with
      | mk h' hc' => exact .mk (by rw [h, h']; rfl) fun c hc => ih c hc (hc' c hc)

theorem Program.proper_iff {p : Program} : (∀ n ∈ p.body, Node.Every Node.proper n) ↔
    (∀ n ∈ p.body, n.WellFormed) ∧ p.Plain := by
  constructor
  · intro h
    exact ⟨fun n hn => (Node.every_and.mp (h n hn)).1, fun n hn => (Node.every_and.mp (h n hn)).2⟩
  · rintro ⟨hw, hp⟩ n hn
    exact Node.every_and.mpr ⟨hw n hn, hp n hn⟩

/-- A form gives the normal form of its script back. -/
theorem recover_form {p : Program} (hp : ∀ n ∈ p.body, Node.Every Node.proper n)
    (h : p.form = .ok x) : Program.recover x = p.norm := by
  simp only [Program.form, bind_ok, pure_ok] at h
  obtain ⟨xs, hxs, rfl⟩ := h
  simp [Program.recover, recoverListAt, Program.norm,
    statements_recovered (fun n hn => (hp n hn).recovers) hxs]

/-- Two scripts are converted to the same form exactly if they have the same normal form. -/
theorem form_eq_iff_norm_eq {p q : Program} (hp : p.WellFormed) (hq : q.WellFormed)
    (hp' : p.Plain) (hq' : q.Plain) (hx : p.form = .ok x) (hy : q.form = .ok y) :
    x = y ↔ p.norm = q.norm := by
  have hp := Program.proper_iff.mpr ⟨hp.2, hp'⟩
  have hq := Program.proper_iff.mpr ⟨hq.2, hq'⟩
  constructor
  · intro h
    calc p.norm = Program.recover x := (recover_form hp hx).symm
      _ = Program.recover y := by rw [h]
      _ = q.norm := recover_form hq hy
  · intro h
    have hn : p.norm.form = q.norm.form := by rw [h]
    rw [form_norm hp hx, form_norm hq hy] at hn
    exact Except.ok.inj hn

/-- The script `for await (let x of (a)) ;`. -/
def Program.declaringLoop : Program :=
  ⟨[], [.forOfStatement (some ⟨1, 0⟩) true
    (.variableDeclaration none (Text.ofString "let")
      [.variableDeclarator none (.identifier none (Text.ofString "x")) .absent])
    (.parenthesizedExpression none (.identifier none (Text.ofString "a"))) (.emptyStatement none)]⟩

/-- The script `for (x of a) ;`. -/
def Program.namingLoop : Program :=
  ⟨[], [.forOfStatement none false (.identifier none (Text.ofString "x"))
    (.identifier none (Text.ofString "a")) (.emptyStatement none)]⟩

theorem declaringLoop_proper : ∀ n ∈ Program.declaringLoop.body, Node.Every Node.proper n := by
  refine List.forall_mem_singleton.mpr (.mk rfl ?_)
  simp only [Node.children, List.forall_mem_cons]
  refine ⟨.mk rfl (List.forall_mem_singleton.mpr (.mk rfl ?_)),
    .mk rfl (List.forall_mem_singleton.mpr (.leaf rfl rfl)), .leaf rfl rfl, List.forall_mem_nil _⟩
  simp only [Node.children, List.forall_mem_cons]
  exact ⟨.leaf rfl rfl, .leaf rfl rfl, List.forall_mem_nil _⟩

theorem namingLoop_proper : ∀ n ∈ Program.namingLoop.body, Node.Every Node.proper n := by
  refine List.forall_mem_singleton.mpr (.mk rfl ?_)
  simp only [Node.children, List.forall_mem_cons]
  exact ⟨.leaf rfl rfl, .leaf rfl rfl, .leaf rfl rfl, List.forall_mem_nil _⟩

theorem loops_confused :
    Program.declaringLoop.WellFormed ∧ Program.namingLoop.WellFormed ∧
      Program.declaringLoop.Plain ∧ Program.namingLoop.Plain ∧
      ∃ x y, Program.declaringLoop.form = .ok x ∧ Program.namingLoop.form = .ok y ∧ x = y := by
  have hd := Program.proper_iff.mp declaringLoop_proper
  have hn := Program.proper_iff.mp namingLoop_proper
  refine ⟨⟨rfl, hd.1⟩, ⟨rfl, hn.1⟩, hd.2, hn.2, _, _, rfl, rfl, ?_⟩
  exact (form_eq_iff_norm_eq ⟨rfl, hd.1⟩ ⟨rfl, hn.1⟩ hd.2 hn.2 rfl rfl).mpr rfl

end Treewire.Script
