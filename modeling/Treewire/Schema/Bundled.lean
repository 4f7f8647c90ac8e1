import Treewire.Schema

/-!
# The syntax-tree schema

The messages that hold a script's syntax tree, under the package `compiler.protobuf`. A statement
or expression is a message with one oneof, one member for each form it can take.
-/

namespace Treewire.Schema.Bundled

def qualified (name : String) : String := "compiler.protobuf." ++ name

def scalar (kind : ScalarKind) (number : Nat) (name : String) : Field :=
  ⟨number, name, .scalar kind, .implicit, none, none⟩

def text : Nat → String → Field := scalar .string

def flag : Nat → String → Field := scalar .bool

/-- A message field that may be absent. -/
def one (type : String) (number : Nat) (name : String) : Field :=
  ⟨number, name, .message (qualified type), .explicit, none, none⟩

def many (type : String) (number : Nat) (name : String) : Field :=
  ⟨number, name, .message (qualified type), .repeated, none, none⟩

def choice (type : String) (number : Nat) (name : String) : Field :=
  ⟨number, name, .enum (qualified type), .implicit, none, none⟩

/-- The field as a member of a oneof. -/
def within (oneof : String) (f : Field) : Field :=
  { f with cardinality := .explicit, oneof := some oneof }

def type (name : String) (fields : List Field) : MessageType := ⟨qualified name, fields, [], false⟩

def ast : MessageType := type "AST" [many "Statement" 1 "statements"]

def parameter : MessageType := type "Parameter"
  [text 1 "name", one "Expression" 2 "default_value", flag 3 "rest"]

def variableDeclarator : MessageType := type "VariableDeclarator"
  [text 1 "name", one "Expression" 2 "value"]

def variableDeclaration : MessageType := type "VariableDeclaration"
  [choice "VariableDeclarationKind" 1 "kind", many "VariableDeclarator" 2 "declarations"]

def functionDeclaration : MessageType := type "FunctionDeclaration"
  [text 1 "name", choice "FunctionType" 2 "type", many "Parameter" 3 "parameters",
    many "Statement" 4 "body"]

def classProperty : MessageType := type "ClassProperty"
  [within "key" (text 1 "name"), within "key" (scalar .int64 2 "index"),
    within "key" (one "Expression" 3 "expression"), flag 4 "is_static",
    one "Expression" 5 "value"]

def classMethod : MessageType := type "ClassMethod"
  [text 1 "name", flag 2 "is_static", text 3 "kind", many "Parameter" 4 "parameters",
    many "Statement" 5 "body"]

def classDeclaration : MessageType := type "ClassDeclaration"
  [text 1 "name", one "Expression" 2 "super_class", many "ClassProperty" 3 "properties",
    many "ClassMethod" 4 "methods"]

def returnStatement : MessageType := type "ReturnStatement" [one "Expression" 1 "argument"]

def expressionStatement : MessageType := type "ExpressionStatement"
  [one "Expression" 1 "expression"]

def ifStatement : MessageType := type "IfStatement"
  [one "Expression" 1 "test", one "Statement" 2 "if_body", one "Statement" 3 "else_body"]

def whileLoop : MessageType := type "WhileLoop"
  [one "Expression" 1 "test", one "Statement" 2 "body"]

def doWhileLoop : MessageType := type "DoWhileLoop"
  [one "Statement" 1 "body", one "Expression" 2 "test"]

def forLoop : MessageType := type "ForLoop"
  [within "initializer" (one "VariableDeclaration" 1 "declaration"),
    within "initializer" (one "Expression" 2 "expression"), one "Expression" 3 "condition",
    one "Expression" 4 "afterthought", one "Statement" 5 "body"]

def loopOver : List Field :=
  [one "VariableDeclarator" 1 "left", one "Expression" 2 "right", one "Statement" 3 "body"]

def forInLoop : MessageType := type "ForInLoop" loopOver

def forOfLoop : MessageType := type "ForOfLoop" loopOver

def breakStatement : MessageType := type "BreakStatement" [text 1 "label"]

def continueStatement : MessageType := type "ContinueStatement" [text 1 "label"]

def catchClause : MessageType := type "CatchClause"
  [one "Parameter" 1 "parameter", many "Statement" 2 "body"]

def finallyClause : MessageType := type "FinallyClause" [many "Statement" 1 "body"]

def tryStatement : MessageType := type "TryStatement"
  [many "Statement" 1 "body", one "CatchClause" 2 "catch_clause",
    one "FinallyClause" 3 "finally_clause"]

def throwStatement : MessageType := type "ThrowStatement" [one "Expression" 1 "argument"]

def switchCase : MessageType := type "SwitchCase"
  [one "Expression" 1 "test", many "Statement" 2 "consequent"]

def switchStatement : MessageType := type "SwitchStatement"
  [one "Expression" 1 "discriminant", many "SwitchCase" 2 "cases"]

def emptyStatement : MessageType := type "EmptyStatement" []

def blockStatement : MessageType := type "BlockStatement" [many "Statement" 1 "body"]

/-- Message fields numbered from one, all members of one oneof. -/
def alternatives (oneof : String) (members : List (String × String)) : List Field :=
  members.mapIdx fun i (message, name) => within oneof (one message (i + 1) name)

def statement : MessageType := type "Statement" <| alternatives "statement"
  [("EmptyStatement", "empty_statement"), ("BlockStatement", "block_statement"),
    ("VariableDeclaration", "variable_declaration"),
    ("FunctionDeclaration", "function_declaration"), ("ClassDeclaration", "class_declaration"),
    ("ReturnStatement", "return_statement"), ("ExpressionStatement", "expression_statement"),
    ("IfStatement", "if_statement"), ("WhileLoop", "while_loop"), ("DoWhileLoop", "do_while_loop"),
    ("ForLoop", "for_loop"), ("ForInLoop", "for_in_loop"), ("ForOfLoop", "for_of_loop"),
    ("BreakStatement", "break_statement"), ("ContinueStatement", "continue_statement"),
    ("TryStatement", "try_statement"), ("ThrowStatement", "throw_statement"),
    ("SwitchStatement", "switch_statement")]

def identifier : MessageType := type "Identifier" [text 1 "name"]

def numberLiteral : MessageType := type "NumberLiteral" [scalar .double 1 "value"]

def bigIntLiteral : MessageType := type "BigIntLiteral" [text 1 "value"]

def stringLiteral : MessageType := type "StringLiteral" [text 1 "value"]

def templateLiteral : MessageType := type "TemplateLiteral"
  [⟨1, "parts", .scalar .string, .repeated, none, none⟩, many "Expression" 2 "expressions"]

def regExpLiteral : MessageType := type "RegExpLiteral" [text 1 "pattern", text 2 "flags"]

def booleanLiteral : MessageType := type "BooleanLiteral" [flag 1 "value"]

def nullLiteral : MessageType := type "NullLiteral" []

def thisExpression : MessageType := type "ThisExpression" []

def arrayExpression : MessageType := type "ArrayExpression" [many "Expression" 1 "elements"]

def objectProperty : MessageType := type "ObjectProperty"
  [within "key" (text 1 "name"), within "key" (scalar .int64 2 "index"),
    within "key" (one "Expression" 3 "expression"), one "Expression" 4 "value"]

def objectMethod : MessageType := type "ObjectMethod"
  [within "key" (text 1 "name"), within "key" (one "Expression" 2 "expression"), text 3 "kind",
    choice "FunctionType" 4 "type", many "Parameter" 5 "parameters", many "Statement" 6 "body"]

def objectField : MessageType := type "ObjectField" <| alternatives "field"
  [("ObjectProperty", "property"), ("ObjectMethod", "method"), ("Expression", "spread")]

def objectExpression : MessageType := type "ObjectExpression" [many "ObjectField" 1 "fields"]

def functionExpression : MessageType := type "FunctionExpression"
  [text 1 "name", choice "FunctionType" 2 "type", many "Parameter" 3 "parameters",
    many "Statement" 4 "body"]

def arrowFunctionExpression : MessageType := type "ArrowFunctionExpression"
  [choice "FunctionType" 1 "type", many "Parameter" 2 "parameters",
    within "body" (one "Statement" 3 "block"), within "body" (one "Expression" 4 "expression")]

def callExpression : MessageType := type "CallExpression"
  [one "Expression" 1 "callee", many "Expression" 2 "arguments", flag 3 "is_optional"]

def newExpression : MessageType := type "NewExpression"
  [one "Expression" 1 "callee", many "Expression" 2 "arguments"]

def memberExpression : MessageType := type "MemberExpression"
  [one "Expression" 1 "object", within "property" (text 2 "name"),
    within "property" (one "Expression" 3 "expression"), flag 4 "is_optional"]

def unaryExpression : MessageType := type "UnaryExpression"
  [text 1 "operator", one "Expression" 2 "argument"]

def operation : List Field :=
  [text 1 "operator", one "Expression" 2 "lhs", one "Expression" 3 "rhs"]

def binaryExpression : MessageType := type "BinaryExpression" operation

def updateExpression : MessageType := type "UpdateExpression"
  [text 1 "operator", flag 2 "is_prefix", one "Expression" 3 "argument"]

def assignmentExpression : MessageType := type "AssignmentExpression" operation

def conditionalExpression : MessageType := type "ConditionalExpression"
  [one "Expression" 1 "test", one "Expression" 2 "consequent", one "Expression" 3 "alternate"]

def sequenceExpression : MessageType := type "SequenceExpression"
  [many "Expression" 1 "expressions"]

def awaitExpression : MessageType := type "AwaitExpression" [one "Expression" 1 "argument"]

def yieldExpression : MessageType := type "YieldExpression"
  [one "Expression" 1 "argument", flag 2 "delegate"]

def spreadElement : MessageType := type "SpreadElement" [one "Expression" 1 "argument"]

def v8IntrinsicIdentifier : MessageType := type "V8IntrinsicIdentifier" [text 1 "name"]

def expression : MessageType := type "Expression" <| alternatives "expression"
  [("Identifier", "identifier"), ("NumberLiteral", "number_literal"),
    ("BigIntLiteral", "bigint_literal"), ("StringLiteral", "string_literal"),
    ("TemplateLiteral", "template_literal"), ("RegExpLiteral", "regexp_literal"),
    ("BooleanLiteral", "boolean_literal"), ("NullLiteral", "null_literal"),
    ("ThisExpression", "this_expression"), ("ArrayExpression", "array_expression"),
    ("ObjectExpression", "object_expression"), ("FunctionExpression", "function_expression"),
    ("ArrowFunctionExpression", "arrow_function_expression"),
    ("CallExpression", "call_expression"), ("NewExpression", "new_expression"),
    ("MemberExpression", "member_expression"), ("UnaryExpression", "unary_expression"),
    ("BinaryExpression", "binary_expression"), ("UpdateExpression", "update_expression"),
    ("AssignmentExpression", "assignment_expression"),
    ("ConditionalExpression", "conditional_expression"),
    ("SequenceExpression", "sequence_expression"), ("AwaitExpression", "await_expression"),
    ("YieldExpression", "yield_expression"), ("SpreadElement", "spread_element"),
    ("V8IntrinsicIdentifier", "v8_intrinsic_identifier")]

def variableDeclarationKind : EnumType :=
  ⟨qualified "VariableDeclarationKind", [("VAR", 0), ("LET", 1), ("CONST", 2)], false⟩

def functionType : EnumType :=
  ⟨qualified "FunctionType",
    [("PLAIN", 0), ("GENERATOR", 1), ("ASYNC", 2), ("ASYNC_GENERATOR", 3)], false⟩

end Bundled

open Bundled in
/-- The schema of syntax trees. -/
def bundled : Schema where
  messages := [ast, parameter, variableDeclarator, variableDeclaration, functionDeclaration,
    classProperty, classMethod, classDeclaration, returnStatement, expressionStatement,
    ifStatement, whileLoop, doWhileLoop, forLoop, forInLoop, forOfLoop, breakStatement,
    continueStatement, catchClause, finallyClause, tryStatement, throwStatement, switchCase,
    switchStatement, emptyStatement, blockStatement, statement, identifier, numberLiteral,
    bigIntLiteral, stringLiteral, templateLiteral, regExpLiteral, booleanLiteral, nullLiteral,
    thisExpression, arrayExpression, objectProperty, objectMethod, objectField, objectExpression,
    functionExpression, arrowFunctionExpression, callExpression, newExpression, memberExpression,
    unaryExpression, binaryExpression, updateExpression, assignmentExpression,
    conditionalExpression, sequenceExpression, awaitExpression, yieldExpression, spreadElement,
    v8IntrinsicIdentifier, expression]
  enums := [variableDeclarationKind, functionType]

/-- The full name of the message that holds a whole tree. -/
def treeMessage : String := "compiler.protobuf.AST"

end Treewire.Schema
