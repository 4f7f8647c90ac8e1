import Treewire.Text
import Treewire.Number.Decimal

/-!
# Script syntax trees

A script is a tree of nodes as a script reader delivers it, one constructor for each node type that
the program knows by its shape. What a node says beyond the program's needs (directives, cooked
template texts, shorthand marks) is kept, so that it can be said which of it is lost.

`absent` stands for a child that is null or not given; an optional child is absent, and a hole of
an array is an absent element.
-/

namespace Treewire.Script

/-- Where a node starts in its source. -/
structure Place where
  line : Int
  column : Int
  deriving DecidableEq, Inhabited

/-- What a function promises its caller. -/
structure FunctionFlags where
  async : Bool
  generator : Bool
  deriving DecidableEq, Inhabited

inductive Node where
  | absent
  /-- A node of a type known here whose own data are not as the type asks. -/
  | incomplete (place : Option Place) (type : Text)
  /-- A node of any other type, with its name and its value as texts if it has them. -/
  | other (place : Option Place) (type : Text) (name value : Option Text)
  -- Statements
  | emptyStatement (place : Option Place)
  | blockStatement (place : Option Place) (directives : List Text) (body : List Node)
  | variableDeclaration (place : Option Place) (kind : Text) (declarations : List Node)
  | variableDeclarator (place : Option Place) (id init : Node)
  | functionDeclaration (place : Option Place) (flags : FunctionFlags) (id : Node)
      (params : List Node) (body : Node)
  | classDeclaration (place : Option Place) (id superClass body : Node)
  | classBody (place : Option Place) (body : List Node)
  | classProperty (place : Option Place) (isStatic computed : Bool) (key value : Node)
  | classMethod (place : Option Place) (isStatic computed : Bool) (kind : Text)
      (flags : FunctionFlags) (key : Node) (params : List Node) (body : Node)
  | returnStatement (place : Option Place) (argument : Node)
  | expressionStatement (place : Option Place) (expression : Node)
  | ifStatement (place : Option Place) (test consequent alternate : Node)
  | whileStatement (place : Option Place) (test body : Node)
  | doWhileStatement (place : Option Place) (body test : Node)
  | forStatement (place : Option Place) (init test update body : Node)
  | forInStatement (place : Option Place) (left right body : Node)
  | forOfStatement (place : Option Place) (awaits : Bool) (left right body : Node)
  | breakStatement (place : Option Place) (label : Node)
  | continueStatement (place : Option Place) (label : Node)
  | tryStatement (place : Option Place) (block handler finalizer : Node)
  | catchClause (place : Option Place) (param body : Node)
  | throwStatement (place : Option Place) (argument : Node)
  | switchStatement (place : Option Place) (discriminant : Node) (cases : List Node)
  | switchCase (place : Option Place) (test : Node) (consequent : List Node)
  -- Patterns
  | assignmentPattern (place : Option Place) (left right : Node)
  | restElement (place : Option Place) (argument : Node)
  -- Expressions
  | identifier (place : Option Place) (name : Text)
  | privateName (place : Option Place) (id : Node)
  | numericLiteral (place : Option Place) (value : Binary64)
  | bigIntLiteral (place : Option Place) (value : Text)
  | stringLiteral (place : Option Place) (value : Text)
  | templateLiteral (place : Option Place) (quasis expressions : List Node)
  | templateElement (place : Option Place) (raw : Text) (cooked : Option Text)
  | regExpLiteral (place : Option Place) (pattern flags : Text)
  | booleanLiteral (place : Option Place) (value : Bool)
  | nullLiteral (place : Option Place)
  | thisExpression (place : Option Place)
  | arrayExpression (place : Option Place) (elements : List Node)
  | objectExpression (place : Option Place) (properties : List Node)
  | objectProperty (place : Option Place) (computed shorthand : Bool) (key value : Node)
  | objectMethod (place : Option Place) (computed : Bool) (kind : Text) (flags : FunctionFlags)
      (key : Node) (params : List Node) (body : Node)
  | functionExpression (place : Option Place) (flags : FunctionFlags) (id : Node)
      (params : List Node) (body : Node)
  | arrowFunctionExpression (place : Option Place) (flags : FunctionFlags) (params : List Node)
      (body : Node)
  /-- A call; `chained` when it belongs to an optional chain, `optional` when the chain may end
  just before it. -/
  | callExpression (place : Option Place) (chained optional : Bool) (callee : Node)
      (arguments : List Node)
  | newExpression (place : Option Place) (callee : Node) (arguments : List Node)
  | memberExpression (place : Option Place) (chained optional computed : Bool)
      (object property : Node)
  | unaryExpression (place : Option Place) (operator : Text) (argument : Node)
  /-- An operation on two values; `logical` when the right one may be left out. -/
  | binaryExpression (place : Option Place) (logical : Bool) (operator : Text) (left right : Node)
  | updateExpression (place : Option Place) (operator : Text) (first : Bool) (argument : Node)
  | assignmentExpression (place : Option Place) (operator : Text) (left right : Node)
  | conditionalExpression (place : Option Place) (test consequent alternate : Node)
  | sequenceExpression (place : Option Place) (expressions : List Node)
  | awaitExpression (place : Option Place) (argument : Node)
  | yieldExpression (place : Option Place) (delegate : Bool) (argument : Node)
  | spreadElement (place : Option Place) (argument : Node)
  | parenthesizedExpression (place : Option Place) (expression : Node)
  | intrinsicIdentifier (place : Option Place) (name : Text)
  deriving Inhabited

/-- A whole script. -/
structure Program where
  directives : List Text
  body : List Node
  deriving Inhabited

namespace Node

/-- The type of a node and its place, unless it is absent. -/
def typeAndPlace? : Node → Option (Text × Option Place)
  | .absent => none
  | .incomplete p type => some (type, p)
  | .other p type _ _ => some (type, p)
  | .emptyStatement p => known "EmptyStatement" p
  | .blockStatement p .. => known "BlockStatement" p
  | .variableDeclaration p .. => known "VariableDeclaration" p
  | .variableDeclarator p .. => known "VariableDeclarator" p
  | .functionDeclaration p .. => known "FunctionDeclaration" p
  | .classDeclaration p .. => known "ClassDeclaration" p
  | .classBody p .. => known "ClassBody" p
  | .classProperty p .. => known "ClassProperty" p
  | .classMethod p .. => known "ClassMethod" p
  | .returnStatement p .. => known "ReturnStatement" p
  | .expressionStatement p .. => known "ExpressionStatement" p
  | .ifStatement p .. => known "IfStatement" p
  | .whileStatement p .. => known "WhileStatement" p
  | .doWhileStatement p .. => known "DoWhileStatement" p
  | .forStatement p .. => known "ForStatement" p
  | .forInStatement p .. => known "ForInStatement" p
  | .forOfStatement p .. => known "ForOfStatement" p
  | .breakStatement p .. => known "BreakStatement" p
  | .continueStatement p .. => known "ContinueStatement" p
  | .tryStatement p .. => known "TryStatement" p
  | .catchClause p .. => known "CatchClause" p
  | .throwStatement p .. => known "ThrowStatement" p
  | .switchStatement p .. => known "SwitchStatement" p
  | .switchCase p .. => known "SwitchCase" p
  | .assignmentPattern p .. => known "AssignmentPattern" p
  | .restElement p .. => known "RestElement" p
  | .identifier p .. => known "Identifier" p
  | .privateName p .. => known "PrivateName" p
  | .numericLiteral p .. => known "NumericLiteral" p
  | .bigIntLiteral p .. => known "BigIntLiteral" p
  | .stringLiteral p .. => known "StringLiteral" p
  | .templateLiteral p .. => known "TemplateLiteral" p
  | .templateElement p .. => known "TemplateElement" p
  | .regExpLiteral p .. => known "RegExpLiteral" p
  | .booleanLiteral p .. => known "BooleanLiteral" p
  | .nullLiteral p => known "NullLiteral" p
  | .thisExpression p => known "ThisExpression" p
  | .arrayExpression p .. => known "ArrayExpression" p
  | .objectExpression p .. => known "ObjectExpression" p
  | .objectProperty p .. => known "ObjectProperty" p
  | .objectMethod p .. => known "ObjectMethod" p
  | .functionExpression p .. => known "FunctionExpression" p
  | .arrowFunctionExpression p .. => known "ArrowFunctionExpression" p
  | .callExpression p chained .. =>
    known (if chained then "OptionalCallExpression" else "CallExpression") p
  | .newExpression p .. => known "NewExpression" p
  | .memberExpression p chained .. =>
    known (if chained then "OptionalMemberExpression" else "MemberExpression") p
  | .unaryExpression p .. => known "UnaryExpression" p
  | .binaryExpression p logical .. =>
    known (if logical then "LogicalExpression" else "BinaryExpression") p
  | .updateExpression p .. => known "UpdateExpression" p
  | .assignmentExpression p .. => known "AssignmentExpression" p
  | .conditionalExpression p .. => known "ConditionalExpression" p
  | .sequenceExpression p .. => known "SequenceExpression" p
  | .awaitExpression p .. => known "AwaitExpression" p
  | .yieldExpression p .. => known "YieldExpression" p
  | .spreadElement p .. => known "SpreadElement" p
  | .parenthesizedExpression p .. => known "ParenthesizedExpression" p
  | .intrinsicIdentifier p .. => known "V8IntrinsicIdentifier" p
where
  known (type : String) (p : Option Place) : Option (Text × Option Place) :=
    some (Text.ofString type, p)

/-- The name that a node has of its own. -/
def name? : Node → Option Text
  | .identifier _ name => some name
  | .intrinsicIdentifier _ name => some name
  | .other _ _ name _ => name
  | _ => none

/-- The value of a literal, written as a property name. -/
def valueText? : Node → Option Text
  | .numericLiteral _ x => some (Text.ofString (DecimalLayout.script.shortest x))
  | .bigIntLiteral _ t | .stringLiteral _ t => some t
  | .booleanLiteral _ b => some (Text.ofString (if b then "true" else "false"))
  | .other _ _ _ value => value
  | _ => none

end Node

end Treewire.Script
