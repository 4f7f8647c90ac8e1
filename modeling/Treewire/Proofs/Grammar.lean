import Treewire.Proofs.WellFormed
import Treewire.Script.Command

/-!
# The grammar of convertible scripts

Which nodes may stand at which position, and in which order the nodes of a script are reached.
That nothing else decides a conversion is the subject of `Treewire.Proofs.Verdict`.

The order is that of the conversion. It is the order of the source but for four places: a counting
loop starts with its body, a case of a switch with its statements, a catch clause with its block,
and a property of an object with its value.
-/

namespace Treewire.Script

-- ---------------------------------------------------------------------------
-- Positions
-- ---------------------------------------------------------------------------

/-- Where a node may stand. The last four are positions that only one type of node can take. -/
inductive Position
  | statement
  | expression
  | parameter
  | binding
  | loopHead
  | key
  | field
  | member
  | declarator
  | catchClause
  | switchCase
  | classBody
  deriving DecidableEq

/-- A node at a position. -/
structure Site where
  position : Position
  node : Node

namespace Node

/-- A declaration of variables is a statement only with one of the three usual kinds. -/
def isStatement : Node → Bool
  | .variableDeclaration _ kind _ => (["var", "let", "const"].map Text.ofString).contains kind
  | .emptyStatement .. | .blockStatement .. | .functionDeclaration .. | .classDeclaration ..
  | .returnStatement .. | .expressionStatement .. | .ifStatement .. | .whileStatement ..
  | .doWhileStatement .. | .forStatement .. | .forInStatement .. | .forOfStatement ..
  | .breakStatement .. | .continueStatement .. | .tryStatement .. | .throwStatement ..
  | .switchStatement .. => true
  | _ => false

def isExpression : Node → Bool
  | .identifier .. | .numericLiteral .. | .bigIntLiteral .. | .stringLiteral ..
  | .templateLiteral .. | .regExpLiteral .. | .booleanLiteral .. | .nullLiteral ..
  | .thisExpression .. | .arrayExpression .. | .objectExpression .. | .functionExpression ..
  | .arrowFunctionExpression .. | .callExpression .. | .newExpression .. | .memberExpression ..
  | .unaryExpression .. | .binaryExpression .. | .updateExpression .. | .assignmentExpression ..
  | .conditionalExpression .. | .sequenceExpression .. | .awaitExpression ..
  | .yieldExpression .. | .spreadElement .. | .parenthesizedExpression ..
  | .intrinsicIdentifier .. => true
  | _ => false

def isParameter : Node → Bool
  | .identifier .. | .assignmentPattern .. | .restElement .. => true
  | _ => false

/-- The head of a loop over a collection declares one variable, of whatever kind, or names one. -/
def isLoopHead : Node → Bool
  | .variableDeclaration _ _ declarations => declarations.length == 1
  | .identifier .. => true
  | _ => false

/-- A key that is not computed. -/
def isKey : Node → Bool
  | .identifier .. | .stringLiteral .. | .numericLiteral .. => true
  | _ => false

def isField : Node → Bool
  | .objectProperty .. | .objectMethod .. | .spreadElement .. => true
  | _ => false

/-- Only properties of classes may have computed keys. -/
def isMember : Node → Bool
  | .classProperty .. => true
  | .classMethod _ _ computed .. => !computed
  | _ => false

end Node

/-- Whether the node may stand there. -/
def Site.fits (s : Site) : Bool :=
  match s.position with
  | .statement => s.node.isStatement
  | .expression => s.node.isExpression
  | .parameter => s.node.isParameter
  | .binding => s.node.isIdentifier
  | .loopHead => s.node.isLoopHead
  | .key => s.node.isKey
  | .field => s.node.isField
  | .member => s.node.isMember
  | .declarator => s.node.isDeclarator
  | .catchClause => s.node.isCatchClause
  | .switchCase => s.node.isCase
  | .classBody => s.node.isClassBody

-- ---------------------------------------------------------------------------
-- The order of nodes
-- ---------------------------------------------------------------------------

/-- The nodes of a list at one position; those that are absent are passed over. -/
def sites (position : Position) (nodes : List Node) : List Site :=
  (nodes.filter Node.isPresent).map (⟨position, ·⟩)

/-- The position of a key, which is any expression if it is computed. -/
def keyPosition (computed : Bool) : Position := if computed then .expression else .key

namespace Node

/-- The position of the start of a counting loop, which is a statement if it is a declaration. -/
def startPosition : Node → Position
  | .variableDeclaration .. => .statement
  | _ => .expression

/-- The position of the body of an arrow function, which is a statement if it is a block. -/
def arrowPosition : Node → Position
  | .blockStatement .. => .statement
  | _ => .expression

/-- What a statement leads to. -/
def statementSites : Node → List Site
  | .blockStatement _ _ body => sites .statement body
  | .variableDeclaration _ _ declarations => sites .declarator declarations
  | .functionDeclaration _ _ _ params body => sites .parameter params ++ sites .statement [body]
  | .classDeclaration _ _ superClass body =>
    sites .expression [superClass] ++ sites .classBody [body]
  | .returnStatement _ argument | .throwStatement _ argument => sites .expression [argument]
  | .expressionStatement _ e => sites .expression [e]
  | .ifStatement _ test consequent alternate =>
    sites .expression [test] ++ sites .statement [consequent, alternate]
  | .whileStatement _ test body => sites .expression [test] ++ sites .statement [body]
  | .doWhileStatement _ body test => sites .statement [body] ++ sites .expression [test]
  | .forStatement _ init test update body =>
    sites .statement [body] ++ sites init.startPosition [init] ++
      sites .expression [test, update]
  | .forInStatement _ left right body | .forOfStatement _ _ left right body =>
    sites .loopHead [left] ++ sites .expression [right] ++ sites .statement [body]
  | .tryStatement _ block handler finalizer =>
    sites .statement [block] ++ sites .catchClause [handler] ++ sites .statement [finalizer]
  | .switchStatement _ discriminant cases =>
    sites .expression [discriminant] ++ sites .switchCase cases
  | _ => []

/-- What an expression leads to. A property that is not computed is not looked at. -/
def expressionSites : Node → List Site
  | .templateLiteral _ _ expressions | .sequenceExpression _ expressions =>
    sites .expression expressions
  | .arrayExpression _ elements => sites .expression elements
  | .objectExpression _ properties => sites .field properties
  | .functionExpression _ _ _ params body => sites .parameter params ++ sites .statement [body]
  | .arrowFunctionExpression _ _ params body =>
    sites .parameter params ++ sites body.arrowPosition [body]
  | .callExpression _ _ _ callee arguments | .newExpression _ callee arguments =>
    sites .expression [callee] ++ sites .expression arguments
  | .memberExpression _ _ _ computed object property =>
    sites .expression [object] ++ sites .expression (if computed then [property] else [])
  | .unaryExpression _ _ argument | .updateExpression _ _ _ argument
  | .awaitExpression _ argument | .yieldExpression _ _ argument | .spreadElement _ argument
  | .parenthesizedExpression _ argument => sites .expression [argument]
  | .binaryExpression _ _ _ left right | .assignmentExpression _ _ left right =>
    sites .expression [left, right]
  | .conditionalExpression _ test consequent alternate =>
    sites .expression [test, consequent, alternate]
  | _ => []

end Node

/-- What a node that fits leads to, in the order of the conversion. -/
def Site.parts : Site → List Site
  | ⟨.statement, node⟩ => node.statementSites
  | ⟨.expression, node⟩ => node.expressionSites
  | ⟨.parameter, .assignmentPattern _ left right⟩ =>
    sites .binding [left] ++ sites .expression [right]
  | ⟨.parameter, .restElement _ argument⟩ => sites .binding [argument]
  | ⟨.loopHead, .variableDeclaration _ _ declarations⟩ => sites .declarator declarations
  | ⟨.field, .objectProperty _ computed _ key value⟩ =>
    sites .expression [value] ++ sites (keyPosition computed) [key]
  | ⟨.field, .objectMethod _ computed _ _ key params body⟩ =>
    sites (keyPosition computed) [key] ++ sites .parameter params ++ sites .statement [body]
  | ⟨.field, .spreadElement _ argument⟩ => sites .expression [argument]
  | ⟨.member, .classProperty _ _ computed key value⟩ =>
    sites (keyPosition computed) [key] ++ sites .expression [value]
  | ⟨.member, .classMethod _ _ _ _ _ _ params body⟩ =>
    sites .parameter params ++ sites .statement [body]
  | ⟨.declarator, .variableDeclarator _ id init⟩ => sites .binding [id] ++ sites .expression [init]
  | ⟨.catchClause, .catchClause _ param body⟩ => sites .statement [body] ++ sites .parameter [param]
  | ⟨.switchCase, .switchCase _ test consequent⟩ =>
    sites .statement consequent ++ sites .expression [test]
  | ⟨.classBody, .classBody _ body⟩ => sites .member body
  | _ => []

theorem forall_sites {p : Site → Prop} :
    (∀ t ∈ sites position ns, p t) ↔ ∀ n ∈ ns, n.isPresent = true → p ⟨position, n⟩ := by
  simp only [sites, List.forall_mem_map, List.mem_filter, and_imp]

theorem statementSites_child (n : Node) : ∀ t ∈ n.statementSites, t.node ∈ n.children := by
  cases n <;>
    simp +contextual [Node.statementSites, Node.children, or_imp, forall_and, forall_sites]

theorem expressionSites_child (n : Node) : ∀ t ∈ n.expressionSites, t.node ∈ n.children := by
  cases n <;>
    simp +contextual [Node.expressionSites, Node.children, or_imp, forall_and, forall_sites]

/-- Parts are children. -/
theorem parts_child (s : Site) : ∀ t ∈ s.parts, t.node ∈ s.node.children := by
  fun_cases Site.parts s
  case case1 => exact statementSites_child _
  case case2 => exact expressionSites_child _
  all_goals simp +contextual [Node.children, or_imp, forall_and, forall_sites]

theorem child_lt {n c : Node} (h : c ∈ n.children) : sizeOf c < sizeOf n := by
  have hlist {ns : List Node} : c ∈ ns → sizeOf c < sizeOf ns := List.sizeOf_lt_of_mem
  cases n <;> simp [Node.children] at h ⊢ <;> grind

/-- All nodes that are reached from a site, the site first. -/
def Site.reached (s : Site) : List Site :=
  s :: s.parts.attach.flatMap fun t => t.1.reached
termination_by s.node
decreasing_by exact child_lt (parts_child s t.1 t.2)

theorem reached_eq (s : Site) : s.reached = s :: s.parts.flatMap Site.reached := by
  rw [Site.reached, List.flatMap_subtype (g := Site.reached) (by simp)]
  simp

end Treewire.Script
