import Treewire.Script.Tree
import Treewire.Script.Form

/-!
# Converting a script

Each function converts the nodes of one position: statements, expressions, parameters, keys, fields
of object literals and members of classes. A node that has no form at its position is reported with
its type and place; where several have none, the one that is reached first. Parts are reached in
the order of the definitions, which is not always the order of the source.
-/

namespace Treewire.Script

/-- Why a script has no form. -/
inductive Fault where
  /-- A node stands where its type has no form. -/
  | unsupported (type : Text) (place : Option Place)
  /-- A part is missing that every node of the type has. -/
  | malformed
  deriving DecidableEq, Inhabited

abbrev Converted (α : Type) := Except Fault α

namespace Node

/-- Reports a node that has no form where it stands. -/
def refuse {α : Type} (node : Node) : Converted α :=
  match node.typeAndPlace? with
  | some (type, place) => throw (.unsupported type place)
  | none => throw .malformed

/-- Types that have a form as statements, for nodes that say no more than their type. -/
def statementTypes : List String :=
  ["EmptyStatement", "BlockStatement", "VariableDeclaration", "FunctionDeclaration",
    "ClassDeclaration", "ReturnStatement", "ExpressionStatement", "IfStatement", "WhileStatement",
    "DoWhileStatement", "ForStatement", "ForInStatement", "ForOfStatement", "BreakStatement",
    "ContinueStatement", "TryStatement", "ThrowStatement", "SwitchStatement"]

def expressionTypes : List String :=
  ["Identifier", "NumericLiteral", "BigIntLiteral", "StringLiteral", "TemplateLiteral",
    "RegExpLiteral", "BooleanLiteral", "NullLiteral", "ThisExpression", "ArrayExpression",
    "ObjectExpression", "FunctionExpression", "ArrowFunctionExpression", "CallExpression",
    "OptionalCallExpression", "NewExpression", "MemberExpression", "OptionalMemberExpression",
    "UnaryExpression", "BinaryExpression", "LogicalExpression", "UpdateExpression",
    "AssignmentExpression", "ConditionalExpression", "SequenceExpression", "AwaitExpression",
    "YieldExpression", "SpreadElement", "ParenthesizedExpression", "V8IntrinsicIdentifier"]

def parameterTypes : List String := ["Identifier", "AssignmentPattern", "RestElement"]

def fieldTypes : List String := ["ObjectProperty", "ObjectMethod", "SpreadElement"]

def memberTypes : List String := ["ClassProperty", "ClassMethod"]

def keyTypes : List String := ["Identifier", "StringLiteral", "NumericLiteral"]

/-- Refuses a node at a position, unless only its data are at fault. -/
def refuseAt {α : Type} (types : List String) (node : Node) : Converted α :=
  match node with
  | .incomplete _ type =>
    if types.any (Text.ofString · == type) then throw .malformed else node.refuse
  | _ => node.refuse

end Node

/-- The flags of a function as an enumeration. -/
def FunctionFlags.form (flags : FunctionFlags) : Form :=
  .choice <| match flags.async, flags.generator with
    | true, true => "ASYNC_GENERATOR"
    | true, false => "ASYNC"
    | false, true => "GENERATOR"
    | false, false => "PLAIN"

/-- Names that a look-up in any table of a script finds although nobody put them there. Behind one
of them is a table, behind the others are functions, which no form holds. -/
def inheritedNames : List String :=
  ["constructor", "hasOwnProperty", "isPrototypeOf", "propertyIsEnumerable", "toLocaleString",
    "toString", "valueOf", "__defineGetter__", "__defineSetter__", "__lookupGetter__",
    "__lookupSetter__"]

/-- The member for the kind of a declaration, if the look-up of the kind finds anything. -/
def declarationKind? (kind : Text) : Option Form.Members :=
  match kind.toString? with
  | some "var" => some [("kind", .choice "VAR")]
  | some "let" => some [("kind", .choice "LET")]
  | some "const" => some [("kind", .choice "CONST")]
  | some "__proto__" => some [("kind", .record [])]
  | some name => if inheritedNames.contains name then some [] else none
  | none => none

/-- A key that is written in the source and not computed. A number that is an integer is an index,
any other number a name. -/
def plainKey : Node → Converted Form.Members
  | .identifier _ name => return [("name", .text name)]
  | .stringLiteral _ value => return [("name", .text value)]
  | .numericLiteral _ x =>
    return if x.toInt?.isSome then [("index", .number x)]
      else [("name", .text (Text.ofString (DecimalLayout.script.shortest x)))]
  | node => node.refuseAt Node.keyTypes

/-- A key in which an index is a name too. -/
def nameOnly : Form.Members → Form.Members
  | [("index", .number x)] => [("name", .text (Text.ofString (DecimalLayout.script.shortest x)))]
  | key => key

/-- The name of a class method: its key's name unless that is empty, else the key's value. -/
def methodName (key : Node) : Converted Text :=
  match key with
  | .absent => throw .malformed
  | key => return match key.name? with
    | some (c :: rest) => c :: rest
    | _ => key.valueText?.getD (Text.ofString "undefined")

/-- The name that a node has, for a position where every node is welcome. -/
def nameMember (key : String) (node : Node) : Converted Form.Members :=
  match node with
  | .absent => throw .malformed
  | node => return Form.optional key (node.name?.map .text)

/-- The name of a function or class, empty if it has none. -/
def nameOrEmpty (id : Node) : Form.Members :=
  match id with
  | .absent => [("name", .text [])]
  | id => Form.optional "name" (id.name?.map .text)

/-- A label, if there is one. -/
def labelMember (label : Node) : Form.Members :=
  match label with
  | .absent => []
  | label => Form.optional "label" (label.name?.map .text)

/-- The texts between the substitutions of a template, as they are written. -/
def templateParts : List Node → Converted (List Form)
  | [] => return []
  | .templateElement _ raw _ :: rest => return .text raw :: (← templateParts rest)
  | _ :: _ => throw .malformed

/-- A member for a node that may be absent. -/
def optionally (name : String) (node : Node) (convert : Unit → Converted Form) :
    Converted Form.Members :=
  match node with
  | .absent => return []
  | _ => return [(name, ← convert ())]

/-- The body of a function; a single statement counts as a body of its own. -/
def functionBody (node : Node) (block : Unit → Converted (List Form))
    (single : Unit → Converted Form) : Converted (List Form) :=
  match node with
  | .blockStatement .. => block ()
  | _ => return [← single ()]

/-- The body of an arrow function, a block or an expression. -/
def arrowBody (node : Node) (block : Unit → Converted (List Form))
    (single : Unit → Converted Form) : Converted Form.Members :=
  match node with
  | .blockStatement .. => return [("block", .wrap "blockStatement" [("body", .list (← block ()))])]
  | .incomplete _ type =>
    if type = Text.ofString "BlockStatement" then throw .malformed
    else node.refuseAt Node.expressionTypes
  | _ => return [("expression", ← single ())]

/-- The key of a property, computed or not. -/
def propertyKey (computed : Bool) (key : Node) (convert : Unit → Converted Form) :
    Converted Form.Members :=
  match computed with
  | true => return [("expression", ← convert ())]
  | false => plainKey key

/-- The property that a member expression asks for. -/
def memberProperty (computed : Bool) (property : Node) (convert : Unit → Converted Form) :
    Converted Form.Members :=
  match computed with
  | true => return [("expression", ← convert ())]
  | false => nameMember "name" property

/-- The members of a declaration of variables. -/
def declarationMembers (node : Node) (kind : Text) (declarators : Unit → Converted (List Form)) :
    Converted Form.Members :=
  match declarationKind? kind with
  | none => node.refuse
  | some kind => return kind ++ [("declarations", .list (← declarators ()))]

/-- The start of a counting loop: nothing, a declaration or an expression. -/
def loopStart (node : Node) (declarators : Unit → Converted (List Form))
    (single : Unit → Converted Form) : Converted Form.Members :=
  match node with
  | .absent => return []
  | .variableDeclaration _ kind _ =>
    return [("declaration", .record (← declarationMembers node kind declarators))]
  | _ => return [("expression", ← single ())]

mutual

def statement : Node → Converted Form
  | .emptyStatement _ => return .wrap "emptyStatement" []
  | .blockStatement _ _ body => return .wrap "blockStatement" [("body", .list (← statements body))]
  | node@(.variableDeclaration _ kind declarations) =>
    return .wrap "variableDeclaration"
      (← declarationMembers node kind fun _ => declarators declarations)
  | .functionDeclaration _ flags id params body => do
    let name ← nameMember "name" id
    let params ← parameters params
    let body ← functionBody body (fun _ => blockBody body) fun _ => statement body
    return .wrap "functionDeclaration" (name ++ [("type", flags.form),
      ("parameters", .list params), ("body", .list body)])
  | .classDeclaration _ id superClass body => do
    let name := nameOrEmpty id
    let parent ← optionally "superClass" superClass fun _ => expression superClass
    let (properties, methods) ← classBody body
    return .wrap "classDeclaration" (name ++ [("properties", .list properties),
      ("methods", .list methods)] ++ parent)
  | .returnStatement _ argument =>
    return .wrap "returnStatement" (← optionally "argument" argument fun _ => expression argument)
  | .expressionStatement _ e =>
    return .wrap "expressionStatement" [("expression", ← expression e)]
  | .ifStatement _ test consequent alternate => do
    let test ← expression test
    let yes ← statement consequent
    let no ← optionally "elseBody" alternate fun _ => statement alternate
    return .wrap "ifStatement" ([("test", test), ("ifBody", yes)] ++ no)
  | .whileStatement _ test body => do
    let test ← expression test
    return .wrap "whileLoop" [("test", test), ("body", ← statement body)]
  | .doWhileStatement _ body test => do
    let body ← statement body
    return .wrap "doWhileLoop" [("body", body), ("test", ← expression test)]
  | .forStatement _ init test update body => do
    let body ← statement body
    let start ← loopStart init (fun _ => declarations init) fun _ => expression init
    let condition ← optionally "condition" test fun _ => expression test
    let step ← optionally "afterthought" update fun _ => expression update
    return .wrap "forLoop" (("body", body) :: start ++ condition ++ step)
  | .forInStatement _ left right body => do
    let left ← loopTarget left
    let right ← expression right
    return .wrap "forInLoop" [("left", left), ("right", right), ("body", ← statement body)]
  | .forOfStatement _ _ left right body => do
    let left ← loopTarget left
    let right ← expression right
    return .wrap "forOfLoop" [("left", left), ("right", right), ("body", ← statement body)]
  | .breakStatement _ label => return .wrap "breakStatement" (labelMember label)
  | .continueStatement _ label => return .wrap "continueStatement" (labelMember label)
  | .tryStatement _ block handler finalizer => do
    let body ← blockBody block
    let handler ← catchMember handler
    let final ← optionally "finallyClause" finalizer fun _ =>
      return .record [("body", .list (← blockBody finalizer))]
    return .wrap "tryStatement" (("body", .list body) :: handler ++ final)
  | .throwStatement _ argument =>
    return .wrap "throwStatement" [("argument", ← expression argument)]
  | .switchStatement _ discriminant cases => do
    let discriminant ← expression discriminant
    return .wrap "switchStatement"
      [("discriminant", discriminant), ("cases", .list (← switchCases cases))]
  | node => node.refuseAt Node.statementTypes

def statements : List Node → Converted (List Form)
  | [] => return []
  | node :: rest => return (← statement node) :: (← statements rest)

/-- The statements of a block where nothing else may stand. -/
def blockBody : Node → Converted (List Form)
  | .blockStatement _ _ body => statements body
  | .classBody _ body => statements body
  | _ => throw .malformed

def catchMember : Node → Converted Form.Members
  | .absent => return []
  | .catchClause _ param body => do
    let body ← blockBody body
    let parameter ← optionally "parameter" param fun _ => parameter param
    return [("catchClause", .record (("body", .list body) :: parameter))]
  | _ => throw .malformed

def switchCases : List Node → Converted (List Form)
  | [] => return []
  | .switchCase _ test consequent :: rest => do
    let consequent ← statements consequent
    let test ← optionally "test" test fun _ => expression test
    return .record (("consequent", .list consequent) :: test) :: (← switchCases rest)
  | _ :: _ => throw .malformed

/-- The variables that a declaration declares. -/
def declarations : Node → Converted (List Form)
  | .variableDeclaration _ _ list => declarators list
  | _ => throw .malformed

/-- The variable of a loop over a collection. -/
def loopTarget : Node → Converted Form
  | .variableDeclaration _ _ [declaration] => declarator declaration
  | .identifier _ name => return .record [("name", .text name)]
  | node => node.refuseAt ["VariableDeclaration", "Identifier"]

def declarator : Node → Converted Form
  | .variableDeclarator _ (.identifier _ name) init =>
    return .record (("name", .text name) :: (← optionally "value" init fun _ => expression init))
  | .variableDeclarator _ id _ => id.refuseAt ["Identifier"]
  | _ => throw .malformed

def declarators : List Node → Converted (List Form)
  | [] => return []
  | node :: rest => return (← declarator node) :: (← declarators rest)

def parameter : Node → Converted Form
  | .identifier _ name => return .record [("name", .text name)]
  | .assignmentPattern _ (.identifier _ name) right =>
    return .record [("name", .text name), ("defaultValue", ← expression right)]
  | .assignmentPattern _ left _ => left.refuseAt ["Identifier"]
  | .restElement _ (.identifier _ name) =>
    return .record [("name", .text name), ("rest", .bool true)]
  | .restElement _ argument => argument.refuseAt ["Identifier"]
  | node => node.refuseAt Node.parameterTypes

def parameters : List Node → Converted (List Form)
  | [] => return []
  | node :: rest => return (← parameter node) :: (← parameters rest)

def classBody : Node → Converted (List Form × List Form)
  | .classBody _ body => classMembers body
  | .blockStatement _ _ body => classMembers body
  | _ => throw .malformed

/-- The properties and the methods of a class, each in their own order. -/
def classMembers : List Node → Converted (List Form × List Form)
  | [] => return ([], [])
  | .classProperty _ isStatic computed key value :: rest => do
    let key ← propertyKey computed key fun _ => expression key
    let value ← optionally "value" value fun _ => expression value
    let (properties, methods) ← classMembers rest
    return (.record (("isStatic", .bool isStatic) :: key ++ value) :: properties, methods)
  | node@(.classMethod _ isStatic computed kind _ key params body) :: rest => do
    if computed then node.refuse
    else
      let name ← methodName key
      let params ← parameters params
      let body ← functionBody body (fun _ => blockBody body) fun _ => statement body
      let (properties, methods) ← classMembers rest
      return (properties, .record [("name", .text name), ("isStatic", .bool isStatic),
        ("kind", .text kind), ("parameters", .list params), ("body", .list body)] :: methods)
  | node :: _ => node.refuseAt Node.memberTypes

def objectField : Node → Converted Form
  | .objectProperty _ computed _ key value => do
    let value ← expression value
    let key ← propertyKey computed key fun _ => expression key
    return .wrap "property" (("value", value) :: key)
  | .objectMethod _ computed kind flags key params body => do
    let key ← propertyKey computed key fun _ => expression key
    let params ← parameters params
    let body ← functionBody body (fun _ => blockBody body) fun _ => statement body
    return .wrap "method" (nameOnly key ++ [("kind", .text kind), ("type", flags.form),
      ("parameters", .list params), ("body", .list body)])
  | .spreadElement _ argument => return .record [("spread", ← expression argument)]
  | node => node.refuseAt Node.fieldTypes

def objectFields : List Node → Converted (List Form)
  | [] => return []
  | node :: rest => return (← objectField node) :: (← objectFields rest)

def expression : Node → Converted Form
  | .identifier _ name => return .wrap "identifier" [("name", .text name)]
  | .numericLiteral _ x => return .wrap "numberLiteral" [("value", .number x)]
  | .bigIntLiteral _ value => return .wrap "bigintLiteral" [("value", .text value)]
  | .stringLiteral _ value => return .wrap "stringLiteral" [("value", .text value)]
  | .templateLiteral _ quasis values => do
    let parts ← templateParts quasis
    return .wrap "templateLiteral"
      [("parts", .list parts), ("expressions", .list (← expressions values))]
  | .regExpLiteral _ pattern flags =>
    return .wrap "regexpLiteral" [("pattern", .text pattern), ("flags", .text flags)]
  | .booleanLiteral _ value => return .wrap "booleanLiteral" [("value", .bool value)]
  | .nullLiteral _ => return .wrap "nullLiteral" []
  | .thisExpression _ => return .wrap "thisExpression" []
  | .arrayExpression _ values =>
    return .wrap "arrayExpression" [("elements", .list (← elements values))]
  | .objectExpression _ properties =>
    return .wrap "objectExpression" [("fields", .list (← objectFields properties))]
  | .functionExpression _ flags id params body => do
    let params ← parameters params
    let body ← functionBody body (fun _ => blockBody body) fun _ => statement body
    return .wrap "functionExpression" (nameOrEmpty id ++ [("type", flags.form),
      ("parameters", .list params), ("body", .list body)])
  | .arrowFunctionExpression _ flags params body => do
    let params ← parameters params
    return .wrap "arrowFunctionExpression"
      ([("type", flags.form), ("parameters", .list params)] ++ (← arrowBody body (fun _ => blockBody body) fun _ => expression body))
  | .callExpression _ _ optional callee arguments => do
    let callee ← expression callee
    return .wrap "callExpression" [("callee", callee),
      ("arguments", .list (← expressions arguments)), ("isOptional", .bool optional)]
  | .newExpression _ callee arguments => do
    let callee ← expression callee
    return .wrap "newExpression"
      [("callee", callee), ("arguments", .list (← expressions arguments))]
  | .memberExpression _ _ optional computed object property => do
    let object ← expression object
    let property ← memberProperty computed property fun _ => expression property
    return .wrap "memberExpression"
      ([("object", object), ("isOptional", .bool optional)] ++ property)
  | .unaryExpression _ operator argument =>
    return .wrap "unaryExpression"
      [("operator", .text operator), ("argument", ← expression argument)]
  | .binaryExpression _ _ operator left right => do
    let left ← expression left
    return .wrap "binaryExpression"
      [("operator", .text operator), ("lhs", left), ("rhs", ← expression right)]
  | .updateExpression _ operator first argument =>
    return .wrap "updateExpression" [("operator", .text operator), ("isPrefix", .bool first),
      ("argument", ← expression argument)]
  | .assignmentExpression _ operator left right => do
    let left ← expression left
    return .wrap "assignmentExpression"
      [("operator", .text operator), ("lhs", left), ("rhs", ← expression right)]
  | .conditionalExpression _ test consequent alternate => do
    let test ← expression test
    let yes ← expression consequent
    return .wrap "conditionalExpression"
      [("test", test), ("consequent", yes), ("alternate", ← expression alternate)]
  | .sequenceExpression _ values =>
    return .wrap "sequenceExpression" [("expressions", .list (← expressions values))]
  | .awaitExpression _ argument =>
    return .wrap "awaitExpression" [("argument", ← expression argument)]
  | .yieldExpression _ delegate argument =>
    return .wrap "yieldExpression"
      (("delegate", .bool delegate) :: (← optionally "argument" argument fun _ => expression argument))
  | .spreadElement _ argument =>
    return .wrap "spreadElement" [("argument", ← expression argument)]
  | .parenthesizedExpression _ e => expression e
  | .intrinsicIdentifier _ name => return .wrap "v8IntrinsicIdentifier" [("name", .text name)]
  | node => node.refuseAt Node.expressionTypes

def expressions : List Node → Converted (List Form)
  | [] => return []
  | node :: rest => return (← expression node) :: (← expressions rest)

/-- Elements of an array; a hole becomes an empty form. -/
def elements : List Node → Converted (List Form)
  | [] => return []
  | .absent :: rest => return .record [] :: (← elements rest)
  | node :: rest => return (← expression node) :: (← elements rest)

end

/-- The form of a whole script. -/
def Program.form (p : Program) : Converted Form :=
  return .record [("statements", .list (← statements p.body))]

end Treewire.Script
