import Treewire.Script.Tree
import Treewire.Json

/-!
# Reading syntax trees

A tree arrives as JSON: an object for each node, its `type` naming the constructor. Null and
missing children are absent; anything else that is no object, or has no type, is a node of an
undefined type. The children of an object are read before the object itself is put together, so
the reading follows the structure of the document.
-/

namespace Treewire.Script

/-- A member of a node's object: as it is, as a node, and as a list of nodes if it is one. -/
structure Part where
  raw : Json
  node : Node
  nodes? : Option (List Node)

abbrev Parts := List (String × Part)

namespace Parts

variable (parts : Parts)

def raw? (key : String) : Option Json := (parts.lookup key).map (·.raw)

def node (key : String) : Node := ((parts.lookup key).map (·.node)).getD .absent

def nodes? (key : String) : Option (List Node) := (parts.lookup key).bind (·.nodes?)

def text? (key : String) : Option Text :=
  match parts.raw? key with
  | some (.text t) => some t
  | _ => none

def number? (key : String) : Option Binary64 :=
  match parts.raw? key with
  | some (.int i) => some (.ofInt i)
  | some (.float x) => some x
  | _ => none

/-- Whether a member counts as true. -/
def flag (key : String) : Bool :=
  match parts.raw? key with
  | none | some .null => false
  | some (.bool b) => b
  | some (.int i) => i != 0
  | some (.text t) => !t.isEmpty
  | some _ => true

def flags : FunctionFlags := ⟨parts.flag "async", parts.flag "generator"⟩

end Parts

def integer? : Json → Option Int
  | .int i => some i
  | .float x => x.toInt?
  | _ => none

/-- The start in a `loc` member. -/
def place? (loc : Option Json) : Option Place := do
  let start ← (← loc).get? "start"
  return ⟨← integer? (← start.get? "line"), ← integer? (← start.get? "column")⟩

/-- A member's value as the text that it is printed as. -/
def printed? : Option Json → Option Text
  | none => none
  | some (.text t) => some t
  | some (.int i) => some (Text.ofString (DecimalLayout.script.shortest (.ofInt i)))
  | some (.float x) => some (Text.ofString (DecimalLayout.script.shortest x))
  | some (.bool b) => some (Text.ofString (if b then "true" else "false"))
  | some .null => some (Text.ofString "null")
  | some _ => some (Text.ofString "[object Object]")

/-- The texts of a list of directives. -/
def directives (parts : Parts) : List Text :=
  match parts.raw? "directives" with
  | some (.array items) => items.filterMap fun item =>
      match (item.get? "value").bind (·.get? "value") with
      | some (.text t) => some t
      | _ => none
  | _ => []

/-- Builds a node of a known type, or nothing if its own data are not as the type asks. -/
def knownNode? (type : String) (p : Option Place) (parts : Parts) : Option Node :=
  let node := parts.node
  let nodes := parts.nodes?
  let text := parts.text?
  let flag := parts.flag
  match type with
  | "EmptyStatement" => some (.emptyStatement p)
  | "BlockStatement" => return .blockStatement p (directives parts) (← nodes "body")
  | "VariableDeclaration" => return .variableDeclaration p (← text "kind") (← nodes "declarations")
  | "VariableDeclarator" => some (.variableDeclarator p (node "id") (node "init"))
  | "FunctionDeclaration" =>
    return .functionDeclaration p parts.flags (node "id") (← nodes "params") (node "body")
  | "ClassDeclaration" =>
    some (.classDeclaration p (node "id") (node "superClass") (node "body"))
  | "ClassBody" => return .classBody p (← nodes "body")
  | "ClassProperty" =>
    some (.classProperty p (flag "static") (flag "computed") (node "key") (node "value"))
  | "ClassMethod" =>
    return .classMethod p (flag "static") (flag "computed") (← text "kind") parts.flags
      (node "key") (← nodes "params") (node "body")
  | "ReturnStatement" => some (.returnStatement p (node "argument"))
  | "ExpressionStatement" => some (.expressionStatement p (node "expression"))
  | "IfStatement" =>
    some (.ifStatement p (node "test") (node "consequent") (node "alternate"))
  | "WhileStatement" => some (.whileStatement p (node "test") (node "body"))
  | "DoWhileStatement" => some (.doWhileStatement p (node "body") (node "test"))
  | "ForStatement" =>
    some (.forStatement p (node "init") (node "test") (node "update") (node "body"))
  | "ForInStatement" => some (.forInStatement p (node "left") (node "right") (node "body"))
  | "ForOfStatement" =>
    some (.forOfStatement p (flag "await") (node "left") (node "right") (node "body"))
  | "BreakStatement" => some (.breakStatement p (node "label"))
  | "ContinueStatement" => some (.continueStatement p (node "label"))
  | "TryStatement" =>
    some (.tryStatement p (node "block") (node "handler") (node "finalizer"))
  | "CatchClause" => some (.catchClause p (node "param") (node "body"))
  | "ThrowStatement" => some (.throwStatement p (node "argument"))
  | "SwitchStatement" => return .switchStatement p (node "discriminant") (← nodes "cases")
  | "SwitchCase" => return .switchCase p (node "test") (← nodes "consequent")
  | "AssignmentPattern" => some (.assignmentPattern p (node "left") (node "right"))
  | "RestElement" => some (.restElement p (node "argument"))
  | "Identifier" => return .identifier p (← text "name")
  | "PrivateName" => some (.privateName p (node "id"))
  | "NumericLiteral" => return .numericLiteral p (← parts.number? "value")
  | "BigIntLiteral" => return .bigIntLiteral p (← text "value")
  | "StringLiteral" => return .stringLiteral p (← text "value")
  | "TemplateLiteral" => return .templateLiteral p (← nodes "quasis") (← nodes "expressions")
  | "TemplateElement" => do
    let value ← parts.raw? "value"
    match value.get? "raw", value.get? "cooked" with
    | some (.text raw), some (.text cooked) => some (.templateElement p raw (some cooked))
    | some (.text raw), _ => some (.templateElement p raw none)
    | _, _ => none
  | "RegExpLiteral" => return .regExpLiteral p (← text "pattern") (← text "flags")
  | "BooleanLiteral" => some (.booleanLiteral p (flag "value"))
  | "NullLiteral" => some (.nullLiteral p)
  | "ThisExpression" => some (.thisExpression p)
  | "ArrayExpression" => return .arrayExpression p (← nodes "elements")
  | "ObjectExpression" => return .objectExpression p (← nodes "properties")
  | "ObjectProperty" =>
    some (.objectProperty p (flag "computed") (flag "shorthand") (node "key") (node "value"))
  | "ObjectMethod" =>
    return .objectMethod p (flag "computed") (← text "kind") parts.flags (node "key")
      (← nodes "params") (node "body")
  | "FunctionExpression" =>
    return .functionExpression p parts.flags (node "id") (← nodes "params") (node "body")
  | "ArrowFunctionExpression" =>
    return .arrowFunctionExpression p parts.flags (← nodes "params") (node "body")
  | "CallExpression" =>
    return .callExpression p false (flag "optional") (node "callee") (← nodes "arguments")
  | "OptionalCallExpression" =>
    return .callExpression p true (flag "optional") (node "callee") (← nodes "arguments")
  | "NewExpression" => return .newExpression p (node "callee") (← nodes "arguments")
  | "MemberExpression" =>
    some (.memberExpression p false (flag "optional") (flag "computed") (node "object")
      (node "property"))
  | "OptionalMemberExpression" =>
    some (.memberExpression p true (flag "optional") (flag "computed") (node "object")
      (node "property"))
  | "UnaryExpression" => return .unaryExpression p (← text "operator") (node "argument")
  | "BinaryExpression" =>
    return .binaryExpression p false (← text "operator") (node "left") (node "right")
  | "LogicalExpression" =>
    return .binaryExpression p true (← text "operator") (node "left") (node "right")
  | "UpdateExpression" =>
    return .updateExpression p (← text "operator") (flag "prefix") (node "argument")
  | "AssignmentExpression" =>
    return .assignmentExpression p (← text "operator") (node "left") (node "right")
  | "ConditionalExpression" =>
    some (.conditionalExpression p (node "test") (node "consequent") (node "alternate"))
  | "SequenceExpression" => return .sequenceExpression p (← nodes "expressions")
  | "AwaitExpression" => some (.awaitExpression p (node "argument"))
  | "YieldExpression" => some (.yieldExpression p (flag "delegate") (node "argument"))
  | "SpreadElement" => some (.spreadElement p (node "argument"))
  | "ParenthesizedExpression" => some (.parenthesizedExpression p (node "expression"))
  | "V8IntrinsicIdentifier" => return .intrinsicIdentifier p (← text "name")
  | _ => none

/-- The types that `knownNode?` builds. -/
def knownTypes : List String :=
  ["EmptyStatement", "BlockStatement", "VariableDeclaration", "VariableDeclarator",
    "FunctionDeclaration", "ClassDeclaration", "ClassBody", "ClassProperty", "ClassMethod",
    "ReturnStatement", "ExpressionStatement", "IfStatement", "WhileStatement", "DoWhileStatement",
    "ForStatement", "ForInStatement", "ForOfStatement", "BreakStatement", "ContinueStatement",
    "TryStatement", "CatchClause", "ThrowStatement", "SwitchStatement", "SwitchCase",
    "AssignmentPattern", "RestElement", "Identifier", "PrivateName", "NumericLiteral",
    "BigIntLiteral", "StringLiteral", "TemplateLiteral", "TemplateElement", "RegExpLiteral",
    "BooleanLiteral", "NullLiteral", "ThisExpression", "ArrayExpression", "ObjectExpression",
    "ObjectProperty", "ObjectMethod", "FunctionExpression", "ArrowFunctionExpression",
    "CallExpression", "OptionalCallExpression", "NewExpression", "MemberExpression",
    "OptionalMemberExpression", "UnaryExpression", "BinaryExpression", "LogicalExpression",
    "UpdateExpression", "AssignmentExpression", "ConditionalExpression", "SequenceExpression",
    "AwaitExpression", "YieldExpression", "SpreadElement", "ParenthesizedExpression",
    "V8IntrinsicIdentifier"]

/-- The node that an object with these members stands for. -/
def nodeOfParts (parts : Parts) : Node :=
  let place := place? (parts.raw? "loc")
  let type := (printed? (parts.raw? "type")).getD (Text.ofString "undefined")
  let name := type.toStringLossy
  if knownTypes.contains name then
    (knownNode? name place parts).getD (.incomplete place type)
  else .other place type (parts.text? "name") (printed? (parts.raw? "value"))

mutual
def nodeOfJson : Json → Node
  | .null => .absent
  | .object members => nodeOfParts (partsOfMembers members)
  | _ => .other none (Text.ofString "undefined") none none
def partsOfMembers : List (String × Json) → Parts
  | [] => []
  | (key, v) :: rest => (key, ⟨v, nodeOfJson v, nodesOfJson v⟩) :: partsOfMembers rest
def nodesOfJson : Json → Option (List Node)
  | .array items => some (nodesOfItems items)
  | _ => none
def nodesOfItems : List Json → List Node
  | [] => []
  | v :: rest => nodeOfJson v :: nodesOfItems rest
end

/-- The script whose program node a document holds. -/
def programOfJson? : Json → Option Program
  | .object members =>
    let parts := partsOfMembers members
    (parts.nodes? "body").map fun body => ⟨directives parts, body⟩
  | _ => none

end Treewire.Script
